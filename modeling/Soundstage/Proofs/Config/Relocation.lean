import Soundstage.Config.Load
import Soundstage.Proofs.Disk.FileTree

/-!
# Configs from anywhere

A config calls the files of its events from the directory that it lies in. The config that is loaded calls them from the
working directory, and is otherwise what was written (`Config.Moved`). Main statement: `Config.loads_from_anywhere`,
that this is so for every file tree, wherever in it the config lies and however its path and those of the files are
spelled.
-/

namespace Soundstage

/-- The event `e` calls its file from `dir`, and `e'` calls it from home. -/
structure Event.Moved {D : Type} (t : FileTree D) (dir : D) (e e' : Event) : Prop where
  rest : e' = { e with file := e'.file }
  absent : e.file = none → e'.file = none
  absolute : ∀ {f}, e.file = some f → f.isAbsolute = true → e'.file = some f
  /-- What both name is the same. They open alike, unless the path from home is too long for that. -/
  relative : ∀ {f}, e.file = some f → f.isRelative = true → f.text ≠ "" → ∃ q, e'.file = some q ∧
    t.named t.home q = t.named dir f ∧
      (q.text.utf8ByteSize ≤ Disk.pathLimit → t.opened t.home q = t.opened dir f)

namespace Config

variable {D : Type} {t : FileTree D} {dir : D} {name : List Char} {content : Content} {p : Path} {text : String}
  {c : Config}

/-- The events of `c` call their files from `dir`, and those of `c'` call them from home. -/
structure Moved (t : FileTree D) (dir : D) (c c' : Config) : Prop where
  settings : c' = { c with events := c'.events }
  events : ∀ name, Option.Rel (Event.Moved t dir) (c.event? name) (c'.event? name)

/-- The config in a file of a tree. -/
def loadFrom (t : FileTree D) (p : Path) : Except Fault Config :=
  match t.readText p with
  | .error fault => .error (.unreadable fault.message)
  | .ok text =>
    match ofText text with
    | .error fault => .error fault
    | .ok c =>
      match p.parent? with
      | some base => .ok (c.relativeTo base)
      | none => .ok c

theorem load_eq (disk : Disk) (p : Path) : load disk p = loadFrom disk.tree p := by
  rw [loadFrom, disk.readText_tree]
  rfl

theorem event?_relativeTo (base : Path) (c : Config) (name : String) :
    (c.relativeTo base).event? name = (c.event? name).map (Event.relativeTo base) :=
  NameMap.get?_map ..

/-- What can be read is a file. -/
theorem opened_of_readText (h : t.readText p = .ok text) :
    ∃ dir name content, t.opened t.home p = .ok (.file dir name content) := by
  unfold FileTree.readText at h
  split at h
  · cases h
  · cases h
  · rename_i dir name content hopened
    exact ⟨dir, name, content, hopened⟩

theorem moved_relativeTo {base : Path} (hopened : t.opened t.home p = .ok (.file dir name content))
    (hparent : p.parent? = some base) (c : Config) : Moved t dir c (c.relativeTo base) := by
  refine ⟨rfl, fun event => ?_⟩
  rw [event?_relativeTo]
  cases c.event? event with
  | none => exact .none
  | some e =>
    refine .some ⟨rfl, fun hnone => ?_, fun {f} hfile habs => ?_, fun {f} hfile hrel hne => ?_⟩
    · rw [Event.relativeTo, hnone]
      rfl
    · rw [Event.relativeTo, hfile]
      simp [Path.isRelative, habs]
    · obtain ⟨base', hparent', hnamed, hopens⟩ := FileTree.joined_to_parent hopened hrel
      cases hparent'.symm.trans hparent
      refine ⟨base.join f, ?_, hnamed, hopens (mt String.toList_eq_nil_iff.mp hne)⟩
      rw [Event.relativeTo, hfile]
      simp [hrel]

/-- A config that can be read and makes sense is loaded, whatever the tree and the path. -/
theorem loads_from_anywhere : (∀ disk p, load disk p = loadFrom disk.tree p) ∧
    ∀ {D : Type} (t : FileTree D) {p : Path} {text : String} {c : Config}, t.readText p = .ok text →
      ofText text = .ok c → ∃ dir name content c', t.opened t.home p = .ok (.file dir name content) ∧
        loadFrom t p = .ok c' ∧ Moved t dir c c' := by
  refine ⟨load_eq, fun {D} t {p text c} hread hparse => ?_⟩
  obtain ⟨dir, name, content, hopened⟩ := opened_of_readText hread
  obtain ⟨base, hparent, -⟩ := FileTree.joined_to_parent (f := ⟨""⟩) hopened (by decide)
  refine ⟨dir, name, content, c.relativeTo base, hopened, ?_, moved_relativeTo hopened hparent c⟩
  rw [loadFrom, hread]
  dsimp only
  rw [hparse]
  dsimp only
  rw [hparent]

/-- A config below the working directory, and one that is called from the root of a tree with two directories. -/
theorem loads_from_anywhere_spelled :
    let text := "[events.a]\nfile = \"../x.wav\"\n"
    let disk := Disk.ofList
      [(⟨"cfg/audio.toml"⟩, .file (.text text)), (⟨"x.wav"⟩, .file (.recording ⟨160, 1, 16000⟩))]
    let tree : FileTree Bool :=
      { root := false, home := true, up := fun _ => false
        entry := fun inner name =>
          if inner && name == "audio.toml".toList then .ok (.file (.text text))
          else if !inner && name == "cfg".toList then .ok (.directory true)
          else if !inner && name == "x.wav".toList then .ok (.file (.recording ⟨160, 1, 16000⟩))
          else .error .notFound }
    ∃ c, ofText text = .ok c ∧
      (disk.readText ⟨"./cfg//audio.toml"⟩ = .ok text ∧
        ∃ c', load disk ⟨"./cfg//audio.toml"⟩ = .ok c' ∧ Moved disk.tree (disk.home ++ ["cfg".toList]) c c') ∧
      (tree.readText ⟨"/cfg/./audio.toml"⟩ = .ok text ∧
        ∃ c', loadFrom tree ⟨"/cfg/./audio.toml"⟩ = .ok c' ∧ Moved tree true c c') := by
  intro text disk tree
  have hparse : (ofText text).toOption.isSome = true := by decide +kernel
  cases hc : ofText text with
  | error fault =>
    rw [hc] at hparse
    cases hparse
  | ok c =>
    have hread : disk.readText ⟨"./cfg//audio.toml"⟩ = .ok text := by decide +kernel
    have hreadTree : tree.readText ⟨"/cfg/./audio.toml"⟩ = .ok text := by decide +kernel
    refine ⟨c, rfl, ⟨hread, ?_⟩, hreadTree, ?_⟩
    · obtain ⟨dir, name, content, c', hopened, hload, hmoved⟩ :=
        loads_from_anywhere.2 disk.tree ((disk.readText_tree _).trans hread) hc
      have hplace : disk.tree.opened disk.tree.home ⟨"./cfg//audio.toml"⟩ =
          .ok (.file (disk.home ++ ["cfg".toList]) "audio.toml".toList (.text text)) := by decide +kernel
      cases hopened.symm.trans hplace
      exact ⟨c', (loads_from_anywhere.1 disk _).trans hload, hmoved⟩
    · obtain ⟨dir, name, content, c', hopened, hload, hmoved⟩ := loads_from_anywhere.2 tree hreadTree hc
      have hplace : tree.opened tree.home ⟨"/cfg/./audio.toml"⟩ =
          .ok (.file true "audio.toml".toList (.text text)) := by decide +kernel
      cases hopened.symm.trans hplace
      exact ⟨c', hload, hmoved⟩

end Config

end Soundstage
