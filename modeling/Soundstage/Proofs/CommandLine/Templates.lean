import Mathlib.Data.List.Sort
import Soundstage.Proofs.CommandLine.Outcomes

/-!
# The templates of a config

Files are streamed into two template events, one for each way of playing. The config that is looked for need not
define them, so it is completed before it is auditioned. Main statement: `prepare_ok_iff`, that a config comes out just
if it completes one that can be used: it keeps all that this defines and has the templates besides, each of them without
a file and otherwise as events are by default. The names of the templates are up to the config. If it gives both one
name and does not define that, then there is one template, and it plays once (`shared_template_plays_once`).
-/

namespace Soundstage

namespace NameMap

variable {α : Type} {m m' : NameMap α} {name : String} {v : α}

theorem find_eq_some_iff {l : List (String × α)} (h : (l.map Prod.fst).Nodup) :
    find name l = some v ↔ (name, v) ∈ l := by
  induction l with
  | nil => simp [find]
  | cons e rest ih =>
    obtain ⟨n, w⟩ := e
    obtain ⟨hn, hrest⟩ := List.nodup_cons.mp h
    unfold find
    split
    · subst n
      -- the name is not listed again
      have hout : (name, v) ∉ rest := fun hv => hn (List.mem_map.mpr ⟨_, hv, rfl⟩)
      simp [hout, eq_comm]
    · rename_i hne
      rw [ih hrest]
      simp [hne]

theorem get?_eq_some_iff : m.get? name = some v ↔ (name, v) ∈ m.entries := find_eq_some_iff m.names_nodup

theorem mem_names_iff : name ∈ m.names ↔ (m.get? name).isSome = true := by
  rw [Option.isSome_iff_exists]
  constructor
  · intro h
    obtain ⟨⟨_, v⟩, hv, rfl⟩ := List.mem_map.mp h
    exact ⟨v, get?_eq_some_iff.mpr hv⟩
  · rintro ⟨v, hv⟩
    exact List.mem_map_of_mem (get?_eq_some_iff.mp hv)

/-- The order that entries stand in. -/
def Precedes (a b : String × α) : Prop := Text.Before a.1 b.1

instance : @Std.Irrefl (String × α) Precedes := ⟨fun a => Text.not_before_self a.1⟩

instance : @Std.Antisymm (String × α) Precedes := ⟨fun a _ h h' => absurd (h.trans h') (Text.not_before_self a.1)⟩

theorem sorted (m : NameMap α) : m.entries.Pairwise Precedes :=
  (List.pairwise_map (f := Prod.fst)).mp m.ascending

/-- Maps that read the same are the same, as the order of their entries is fixed. -/
theorem ext_of_get? (h : ∀ name, m.get? name = m'.get? name) : m = m' := by
  have hentries : m.entries = m'.entries := by
    refine m.sorted.eq_of_mem_iff m'.sorted ?_
    rintro ⟨name, v⟩
    rw [← get?_eq_some_iff, ← get?_eq_some_iff, h]
  cases m
  cases m'
  cases hentries
  rfl

theorem get?_insertIfNew (m : NameMap α) (name : String) (v : α) (n : String) :
    (m.insertIfNew name v).get? n = (m.get? n).or (if n = name then some v else none) := by
  unfold insertIfNew contains
  by_cases hn : n = name
  · subst hn
    cases h : m.get? n <;> simp [h]
  · rw [if_neg hn, Option.or_none]
    split
    · rfl
    · exact get?_insert_of_ne m v hn

end NameMap

namespace Config

variable {l c c' : Config} {name : String}

theorem event?_withTemplates (l : Config) (name : String) :
    l.withTemplates.event? name = (l.event? name).or
      (if name = l.customEvent then some {} else if name = l.customLoopEvent then some { looping := true } else none) := by
  unfold event? withTemplates
  rw [NameMap.get?_insertIfNew, NameMap.get?_insertIfNew, Option.or_assoc]
  congr 1
  split <;> rfl

theorem mem_eventNames_iff : name ∈ c.eventNames ↔ (c.event? name).isSome = true := NameMap.mem_names_iff

/-- `c` has the events of `l` and its templates, and is otherwise the same. -/
structure Completes (l c : Config) : Prop where
  settings : c = { l with events := c.events }
  names : ∀ name, name ∈ c.eventNames ↔
    name ∈ l.eventNames ∨ name = l.customEvent ∨ name = l.customLoopEvent
  kept : ∀ {name e}, l.event? name = some e → c.event? name = some e
  /-- A template that `l` does not define is an event by default, and has no file. It loops if it is the looping one
  and only that. -/
  templates : ∀ looping, l.event? (l.template looping) = none →
    c.event? (l.template looping) = some { looping := looping && l.template true != l.template false }

namespace Completes

theorem withTemplates (l : Config) : Completes l l.withTemplates := by
  refine ⟨rfl, fun name => ?_, fun {name e} he => ?_, fun looping hnone => ?_⟩
  · rw [mem_eventNames_iff, mem_eventNames_iff]
    exact l.isSome_withTemplates name
  · rw [event?_withTemplates, he]
    rfl
  · rw [event?_withTemplates, hnone, Option.none_or]
    cases looping with
    | false => exact if_pos rfl
    | true =>
      by_cases hsame : l.customLoopEvent = l.customEvent <;> simp [template, hsame]

theorem template (h : Completes l c) (looping : Bool) :
    c.event? (l.template looping) = l.withTemplates.event? (l.template looping) := by
  have hl := withTemplates l
  cases he : l.event? (l.template looping) with
  | some e => rw [h.kept he, hl.kept he]
  | none => rw [h.templates looping he, hl.templates looping he]

/-- There is one config that completes another. -/
theorem unique (h : Completes l c) : c = l.withTemplates := by
  have hl := withTemplates l
  have hevents : c.events = l.withTemplates.events := by
    refine NameMap.ext_of_get? fun name => ?_
    change c.event? name = l.withTemplates.event? name
    by_cases hname : ∃ looping, name = l.template looping
    · obtain ⟨looping, rfl⟩ := hname
      exact h.template looping
    -- any other name is one of `l`'s or no one's
    cases he : l.event? name with
    | some e => rw [h.kept he, hl.kept he]
    | none =>
      have hout : ∀ {c}, Completes l c → c.event? name = none := by
        intro c hc
        rw [← Option.not_isSome_iff_eq_none, ← mem_eventNames_iff, hc.names, mem_eventNames_iff, he]
        rintro (hdefined | rfl | rfl)
        · cases hdefined
        · exact hname ⟨false, rfl⟩
        · exact hname ⟨true, rfl⟩
      rw [hout h, hout hl]
  rw [h.settings, hevents]
  rfl

end Completes

theorem completes_iff : Completes l c ↔ c = l.withTemplates := by
  refine ⟨Completes.unique, ?_⟩
  rintro rfl
  exact .withTemplates l

/-- What a config is auditioned with. One comes out just if that of the file, or the default one when there is no file,
can be used, and it is that one, completed. -/
theorem prepare_ok_iff (disk : Disk) (p : Path) (c : Config) :
    prepare disk p = .ok c ↔ ∃ l, sought disk p = .ok l ∧ Completes l c := by
  rw [prepare_eq]
  cases h : sought disk p with
  | error cause => simp
  | ok l => simp [completes_iff, eq_comm]

/-- The file may lie above the working directory. -/
example : (prepare (Disk.ofList [(⟨"../shared/audio.toml"⟩, .file (.text "custom_event = \"SFX/t\"\n"))])
    ⟨"../shared/audio.toml"⟩).toOption.map (fun c => c.eventNames) =
      some ["SFX/custom_loop", "SFX/t"] := by
  decide +kernel

/-- Both templates have one name, and what is streamed into the looping one plays once. -/
theorem shared_template_plays_once :
    let p : Path := ⟨"audio.toml"⟩
    let disk := Disk.ofList [(p, .file (.text "custom_event = \"SFX/t\"\ncustom_loop_event = \"SFX/t\"\n"))]
    ∃ l c, sought disk p = .ok l ∧ prepare disk p = .ok c ∧ l.event? l.customLoopEvent = none ∧
      ¬∃ e, c.event? l.customLoopEvent = some e ∧ e.looping = true := by
  intro p disk
  have hread : (sought disk p).toOption.any (fun l =>
      l.customEvent == "SFX/t" && l.customLoopEvent == "SFX/t" && (l.event? "SFX/t").isNone) = true := by decide +kernel
  cases hl : sought disk p with
  | error cause => rw [hl] at hread; cases hread
  | ok l =>
    rw [hl] at hread
    simp only [Except.toOption, Option.any_some, Bool.and_eq_true, beq_iff_eq, Option.isNone_iff_eq_none] at hread
    obtain ⟨⟨hone, hloop⟩, hnone⟩ := hread
    have hcompletes := Completes.withTemplates l
    refine ⟨l, l.withTemplates, rfl, (prepare_eq disk p).trans (by rw [hl]), by rwa [hloop], ?_⟩
    rintro ⟨e, he, hlooping⟩
    have hdefault := hcompletes.templates true (by rwa [Config.template, if_pos rfl, hloop])
    rw [Config.template, if_pos rfl, he] at hdefault
    cases hdefault
    simp [Config.template, hone, hloop] at hlooping

end Config

end Soundstage
