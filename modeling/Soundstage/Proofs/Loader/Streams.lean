import Mathlib.Data.List.Induction
import Soundstage.Proofs.Loader.Lawful
import Soundstage.Proofs.Occurrences

/-!
# Streams and decoded sounds

A streaming loader in the hands of somebody who makes whatever calls they like. What it holds under a number is told by
the calls alone (`Kept`): what was decoded under it, spent once it was taken, and nothing from its release on. Main
statement: `streams_handed_out_once`, that a stream is handed to the first to take it, what was decoded up front to
everybody until it is released, and each number is given out and given up once.
-/

namespace Soundstage

namespace LoadedSound

/-- What is handed out to one who takes it. -/
def data : LoadedSound → Option SoundData
  | .decoded r => some (.decoded r)
  | .stream r => r.map .stream

/-- What is left of it then. -/
def spent : LoadedSound → LoadedSound
  | .decoded r => .decoded r
  | .stream _ => .stream none

@[simp]
theorem spent_spent (s : LoadedSound) : s.spent.spent = s.spent := by cases s <;> rfl

end LoadedSound

namespace StreamingLoader

inductive Call
  | decode (disk : Disk) (path : Path) (mode : DecodeMode)
  | take (x : SoundId)
  | release (x : SoundId)

inductive Answer
  | decoded (result : Except AudioError SoundId)
  | taken (data : Option SoundData)
  | released (result : Except AudioError Unit)

namespace Answer

def isDecoded : Answer → Bool
  | .decoded (.ok _) => true
  | _ => false

def isReleased : Answer → Bool
  | .released (.ok _) => true
  | _ => false

end Answer

/-- What a call is answered, and the loader after it. -/
def Call.make (c : Call) (l : StreamingLoader) : Answer × StreamingLoader :=
  match c with
  | decode disk path mode => (.decoded (l.decode disk path mode).1, (l.decode disk path mode).2)
  | take x => (.taken (l.take x).1, (l.take x).2)
  | release x =>
    match l.release x with
    | .ok l' => (.released (.ok ()), l')
    | .error e => (.released (.error e), l)

/-- Make calls of a new loader, oldest first. -/
def run (calls : List Call) : List Answer × StreamingLoader :=
  calls.foldl (fun s c => (s.1 ++ [(c.make s.2).1], (c.make s.2).2)) ([], {})

def answers (calls : List Call) : List Answer := (run calls).1

def after (calls : List Call) : StreamingLoader := (run calls).2

variable {calls : List Call} {c : Call} {l l' : StreamingLoader} {x y : SoundId} {disk : Disk} {path : Path}
  {mode : DecodeMode} {s : LoadedSound}

theorem answers_concat (calls : List Call) (c : Call) :
    answers (calls ++ [c]) = answers calls ++ [(c.make (after calls)).1] :=
  congrArg Prod.fst List.foldl_append

theorem after_concat (calls : List Call) (c : Call) : after (calls ++ [c]) = (c.make (after calls)).2 :=
  congrArg Prod.snd List.foldl_append

/-! ### One call -/

theorem stream_of_load (hm : mode.contains .nonblocking = true) (h : load disk path mode = .ok s) :
    ∃ recording, disk.openSound path = .ok recording ∧ s = .stream (some recording) := by
  unfold load at h
  rw [if_pos hm] at h
  cases hopen : disk.openSound path with
  | error reason =>
    rw [hopen] at h
    cases h
  | ok recording =>
    rw [hopen] at h
    cases h
    exact ⟨recording, rfl, rfl⟩

theorem decoded_of_load (hm : mode.contains .nonblocking = false) (h : load disk path mode = .ok s) :
    ∃ recording, disk.decodeSound path = .ok recording ∧ s = .decoded recording := by
  unfold load at h
  rw [if_neg (by simp [hm])] at h
  cases hdecode : disk.decodeSound path with
  | error reason =>
    rw [hdecode] at h
    cases h
  | ok recording =>
    rw [hdecode] at h
    cases h
    exact ⟨recording, rfl, rfl⟩

theorem take_eq (l : StreamingLoader) (x : SoundId) : (l.take x).1 = (l.sounds.get? x).bind LoadedSound.data := by
  unfold take
  split <;> rename_i h <;> rw [h] <;> rfl

theorem get?_take (l : StreamingLoader) (x y : SoundId) :
    (l.take x).2.sounds.get? y = (l.sounds.get? y).map fun s => if y = x then s.spent else s := by
  -- of what is kept only a stream is left otherwise than it was
  have same : ∀ {o : Option LoadedSound}, (∀ s, o = some s → y = x → s.spent = s) →
      o = o.map fun s => if y = x then s.spent else s := by
    intro o ho
    cases o with
    | none => rfl
    | some s =>
      by_cases hy : y = x
      · simp [hy, ho s rfl hy]
      · simp [hy]
  unfold take
  split
  · rename_i hx
    refine same fun s hs hy => ?_
    rw [hy, hx] at hs
    cases hs
  · rename_i r hx
    refine same fun s hs hy => ?_
    rw [hy, hx] at hs
    cases hs
    rfl
  · rename_i r hx
    refine (Table.get?_modify_eq_map ..).trans ?_
    by_cases hy : y = x
    · subst hy
      simp [hx, LoadedSound.spent]
    · simp [hy]

theorem next_take (l : StreamingLoader) (x : SoundId) : (l.take x).2.next = l.next := by
  unfold take
  split <;> rfl

theorem size_take (l : StreamingLoader) (x : SoundId) : (l.take x).2.sounds.size = l.sounds.size := by
  unfold take
  split
  · rfl
  · rfl
  · exact List.length_map _

theorem release_eq_error (h : l.sounds.get? x = none) : l.release x = .error (.unknownSound x) := by
  unfold release Table.contains
  rw [h]
  rfl

theorem release_eq_ok (h : l.sounds.get? x = some s) : l.release x = .ok { l with sounds := l.sounds.erase x } := by
  unfold release Table.contains
  rw [h]
  rfl

theorem make_decode {result : Except AudioError SoundId} (h : l.decode disk path mode = (result, l')) :
    (Call.decode disk path mode).make l = (.decoded result, l') := by
  simp only [Call.make, h]

theorem make_release_error (h : l.sounds.get? x = none) :
    (Call.release x).make l = (.released (.error (.unknownSound x)), l) := by
  simp only [Call.make, release_eq_error h]

theorem make_release_ok (h : l.sounds.get? x = some s) :
    (Call.release x).make l = (.released (.ok ()), { l with sounds := l.sounds.erase x }) := by
  simp only [Call.make, release_eq_ok h]

/-- A release that fails has nothing to take away. -/
theorem release_left (l : StreamingLoader) (x : SoundId) :
    ((Call.release x).make l).2.next = l.next ∧
      ∀ y, ((Call.release x).make l).2.sounds.get? y = if y = x then none else l.sounds.get? y := by
  cases hx : l.sounds.get? x with
  | none =>
    rw [make_release_error hx]
    refine ⟨rfl, fun y => ?_⟩
    by_cases hy : y = x
    · simp [hy, hx]
    · simp [hy]
  | some s =>
    rw [make_release_ok hx]
    exact ⟨rfl, fun y => Table.get?_erase ..⟩

/-! ### Histories -/

/-- A file was decoded, and the number `x` was given out for it. -/
def Decoded (x : SoundId) (disk : Disk) (path : Path) (mode : DecodeMode) : List Call → Prop :=
  Occurs fun before c => c = .decode disk path mode ∧ (c.make (after before)).1 = .decoded (.ok x)

def Issued (x : SoundId) (calls : List Call) : Prop := ∃ disk path mode, Decoded x disk path mode calls

/-- Somebody asked for what was decoded as `x`. -/
def Taken (x : SoundId) : List Call → Prop := Occurs fun before c => c = .take x ∧ Issued x before

/-- Somebody gave up what was decoded as `x`. -/
def Released (x : SoundId) : List Call → Prop := Occurs fun before c => c = .release x ∧ Issued x before

theorem decoded_concat : Decoded x disk path mode (calls ++ [c]) ↔ Decoded x disk path mode calls ∨
    c = .decode disk path mode ∧ (c.make (after calls)).1 = .decoded (.ok x) :=
  occurs_concat

theorem decoded_concat_of_ne (hc : ∀ disk path mode, c ≠ .decode disk path mode) :
    Decoded x disk path mode (calls ++ [c]) ↔ Decoded x disk path mode calls :=
  decoded_concat.trans (or_iff_left fun h => hc _ _ _ h.1)

theorem issued_concat_of_ne (hc : ∀ disk path mode, c ≠ .decode disk path mode) :
    Issued x (calls ++ [c]) ↔ Issued x calls := by
  unfold Issued
  simp only [decoded_concat_of_ne hc]

theorem Issued.concat (h : Issued x calls) (c : Call) : Issued x (calls ++ [c]) := by
  obtain ⟨disk, path, mode, h⟩ := h
  exact ⟨disk, path, mode, decoded_concat.mpr (.inl h)⟩

theorem taken_concat : Taken x (calls ++ [c]) ↔ Taken x calls ∨ c = .take x ∧ Issued x calls := occurs_concat

theorem taken_concat_of_ne (hc : ∀ x, c ≠ .take x) : Taken x (calls ++ [c]) ↔ Taken x calls :=
  taken_concat.trans (or_iff_left fun h => hc _ h.1)

theorem released_concat : Released x (calls ++ [c]) ↔ Released x calls ∨ c = .release x ∧ Issued x calls :=
  occurs_concat

theorem released_concat_of_ne (hc : ∀ x, c ≠ .release x) : Released x (calls ++ [c]) ↔ Released x calls :=
  released_concat.trans (or_iff_left fun h => hc _ h.1)

theorem decoded_concat_error {e : AudioError} (hd : (after calls).decode disk path mode = (.error e, l'))
    {disk' : Disk} {path' : Path} {mode' : DecodeMode} :
    Decoded x disk' path' mode' (calls ++ [.decode disk path mode]) ↔ Decoded x disk' path' mode' calls := by
  rw [decoded_concat, make_decode hd]
  simp

theorem decoded_concat_ok (hd : (after calls).decode disk path mode = (.ok y, l'))
    {disk' : Disk} {path' : Path} {mode' : DecodeMode} :
    Decoded x disk' path' mode' (calls ++ [.decode disk path mode]) ↔
      Decoded x disk' path' mode' calls ∨ (disk = disk' ∧ path = path' ∧ mode = mode') ∧ y = x := by
  rw [decoded_concat, make_decode hd]
  simp

theorem Issued.of_before {before rest : List Call} (h : Issued x before) : Issued x (before ++ rest) := by
  induction rest using List.reverseRecOn with
  | nil => rwa [List.append_nil]
  | append_singleton rest c ih =>
    rw [← List.append_assoc]
    exact ih.concat c

theorem Taken.issued (h : Taken x calls) : Issued x calls := by
  obtain ⟨before, c, rest, rfl, -, hissued⟩ := h
  exact hissued.of_before

theorem Released.issued (h : Released x calls) : Issued x calls := by
  obtain ⟨before, c, rest, rfl, -, hissued⟩ := h
  exact hissued.of_before

/-- What a loader holds after these calls. -/
structure Kept (calls : List Call) (l : StreamingLoader) : Prop where
  below : ∀ {x}, Issued x calls → x.val < l.next
  held : ∀ {x disk path mode}, Decoded x disk path mode calls → ¬Released x calls →
    ∃ s, load disk path mode = .ok s ∧ (¬Taken x calls → l.sounds.get? x = some s) ∧
      (Taken x calls → l.sounds.get? x = some s.spent)
  gone : ∀ {x}, (Issued x calls → Released x calls) → l.sounds.get? x = none

namespace Kept

theorem nil : Kept [] {} := by
  refine ⟨fun h => ?_, fun h => absurd h not_occurs_nil, fun _ => rfl⟩
  obtain ⟨_, _, _, h⟩ := h
  exact absurd h not_occurs_nil

/-- Nothing was given out and nothing has changed. -/
theorem decode_error (h : Kept calls (after calls)) {e : AudioError}
    (hd : (after calls).decode disk path mode = (.error e, l')) : Kept (calls ++ [.decode disk path mode]) l' := by
  cases of_decode_error hd
  have hissued : ∀ x, Issued x (calls ++ [.decode disk path mode]) ↔ Issued x calls := by
    intro x
    unfold Issued
    simp only [decoded_concat_error hd]
  have htaken : ∀ x, Taken x (calls ++ [.decode disk path mode]) ↔ Taken x calls :=
    fun x => taken_concat_of_ne (by simp)
  have hreleased : ∀ x, Released x (calls ++ [.decode disk path mode]) ↔ Released x calls :=
    fun x => released_concat_of_ne (by simp)
  constructor <;> simp only [decoded_concat_error hd, hissued, htaken, hreleased]
  · exact h.below
  · exact h.held
  · exact h.gone

/-- A number was given out that nobody had. -/
theorem decode_ok (h : Kept calls (after calls)) (hd : (after calls).decode disk path mode = (.ok y, l')) :
    Kept (calls ++ [.decode disk path mode]) l' := by
  obtain ⟨s, hload, hy, rfl⟩ := decode_eq_ok_iff.mp hd
  have hnew : ¬Issued y calls := by
    intro hi
    have hbelow := h.below hi
    rw [hy] at hbelow
    exact absurd hbelow (Nat.lt_irrefl _)
  have hget : ∀ {x}, x ≠ y → ((after calls).sounds.insert y s).get? x = (after calls).sounds.get? x :=
    fun hx => Table.get?_insert_of_ne _ _ hx
  have hreleased : ∀ x, Released x (calls ++ [.decode disk path mode]) ↔ Released x calls :=
    fun x => released_concat_of_ne (by simp)
  refine ⟨fun {x} hx => ?_, fun {x disk' path' mode'} hx hr => ?_, fun {x} hx => ?_⟩
  · obtain ⟨disk', path', mode', hx⟩ := hx
    rcases (decoded_concat_ok hd).mp hx with hx | ⟨-, rfl⟩
    · exact Nat.lt_succ_of_lt (h.below ⟨disk', path', mode', hx⟩)
    · rw [hy]
      exact Nat.lt_succ_self _
  · rw [hreleased] at hr
    rw [taken_concat_of_ne (by simp)]
    rcases (decoded_concat_ok hd).mp hx with hx | ⟨⟨rfl, rfl, rfl⟩, rfl⟩
    · have hne : x ≠ y := fun e => hnew (e ▸ ⟨_, _, _, hx⟩)
      simp only [hget hne]
      exact h.held hx hr
    · exact ⟨s, hload, fun _ => Table.get?_insert_self .., fun ht => absurd ht.issued hnew⟩
  · have hne : x ≠ y := by
      rintro rfl
      have hr := hx ⟨disk, path, mode, (decoded_concat_ok hd).mpr (.inr ⟨⟨rfl, rfl, rfl⟩, rfl⟩)⟩
      exact hnew ((hreleased x).mp hr).issued
    exact (hget hne).trans (h.gone fun hi => (hreleased x).mp (hx (hi.concat _)))

theorem take (h : Kept calls l) (y : SoundId) : Kept (calls ++ [.take y]) (l.take y).2 := by
  have hne : ∀ disk path mode, Call.take y ≠ .decode disk path mode := by simp
  have hreleased : ∀ x, Released x (calls ++ [.take y]) ↔ Released x calls :=
    fun x => released_concat_of_ne (by simp)
  constructor <;> simp only [decoded_concat_of_ne hne, issued_concat_of_ne hne, hreleased, next_take, get?_take]
  · exact h.below
  · intro x disk path mode hx hr
    obtain ⟨s, hload, hfirst, hlater⟩ := h.held hx hr
    have hissued : Issued x calls := ⟨disk, path, mode, hx⟩
    refine ⟨s, hload, fun ht => ?_, fun ht => ?_⟩
    · obtain ⟨ht, hxy⟩ := not_or.mp (mt taken_concat.mpr ht)
      have hxy : x ≠ y := fun e => hxy ⟨by rw [e], hissued⟩
      simp [hfirst ht, hxy]
    · by_cases htaken : Taken x calls
      · simp [hlater htaken]
      · obtain ⟨hxy, -⟩ := (taken_concat.mp ht).resolve_left htaken
        cases hxy
        simp [hfirst htaken]
  · intro x hx
    rw [h.gone hx]
    rfl

theorem release (h : Kept calls l) (y : SoundId) :
    Kept (calls ++ [.release y]) ((Call.release y).make l).2 := by
  have hne : ∀ disk path mode, Call.release y ≠ .decode disk path mode := by simp
  have htaken : ∀ x, Taken x (calls ++ [.release y]) ↔ Taken x calls :=
    fun x => taken_concat_of_ne (by simp)
  obtain ⟨hnext, hget⟩ := l.release_left y
  constructor <;> simp only [decoded_concat_of_ne hne, issued_concat_of_ne hne, htaken, hnext, hget]
  · exact h.below
  · intro x disk path mode hx hr
    obtain ⟨hr, hxy⟩ := not_or.mp (mt released_concat.mpr hr)
    have hxy : x ≠ y := fun e => hxy ⟨by rw [e], disk, path, mode, hx⟩
    rw [if_neg hxy]
    exact h.held hx hr
  · intro x hx
    split
    · rfl
    · rename_i hxy
      refine h.gone fun hi => (released_concat.mp (hx hi)).resolve_right ?_
      rintro ⟨he, -⟩
      cases he
      exact hxy rfl

end Kept

theorem kept (calls : List Call) : Kept calls (after calls) := by
  induction calls using List.reverseRecOn with
  | nil => exact .nil
  | append_singleton calls c ih =>
    rw [after_concat]
    cases c with
    | decode disk path mode =>
      cases hd : (after calls).decode disk path mode with
      | mk result l' =>
        rw [make_decode hd]
        cases result with
        | error e => exact ih.decode_error hd
        | ok x => exact ih.decode_ok hd
    | take y => exact ih.take y
    | release y => exact ih.release y

/-- Every sound that was given out is live or was given up. -/
theorem live_balance (calls : List Call) : (after calls).sounds.size + (answers calls).countP Answer.isReleased =
    (answers calls).countP Answer.isDecoded := by
  induction calls using List.reverseRecOn with
  | nil => rfl
  | append_singleton calls c ih =>
    rw [after_concat, answers_concat, List.countP_append, List.countP_append, List.countP_singleton,
      List.countP_singleton]
    have hk := kept calls
    generalize after calls = l at ih hk ⊢
    cases c with
    | decode disk path mode =>
      cases hd : l.decode disk path mode with
      | mk result l' =>
        rw [make_decode hd]
        cases result with
        | error e =>
          cases of_decode_error hd
          exact ih
        | ok x =>
          obtain ⟨s, -, hx, rfl⟩ := decode_eq_ok_iff.mp hd
          have hnone : l.sounds.get? x = none := by
            refine hk.gone fun hi => absurd (hk.below hi) ?_
            rw [hx]
            exact Nat.lt_irrefl _
          have hsize := Table.size_insert s hnone
          simp only [Answer.isDecoded, Answer.isReleased, if_true, if_false, Bool.false_eq_true]
          omega
    | take y =>
      refine Eq.trans ?_ ih
      exact congrArg (· + _) (l.size_take y)
    | release y =>
      cases hy : l.sounds.get? y with
      | none =>
        rw [make_release_error hy]
        exact ih
      | some s =>
        rw [make_release_ok hy]
        have hsize := Table.size_erase hy
        simp only [Answer.isDecoded, Answer.isReleased, if_true, if_false, Bool.false_eq_true]
        omega

/-- What a loader answers after these calls. -/
structure HandsOut (calls : List Call) : Prop where
  fresh : ∀ {disk path mode x}, ((after calls).decode disk path mode).1 = .ok x → ¬Issued x calls
  failed : ∀ {disk path mode e}, ((after calls).decode disk path mode).1 = .error e →
    ((after calls).decode disk path mode).2 = after calls
  /-- The first to take a stream gets it. -/
  stream : ∀ {x disk path mode}, Decoded x disk path mode calls → mode.contains .nonblocking = true →
    ¬Released x calls → ∃ recording, disk.openSound path = .ok recording ∧
      (¬Taken x calls → ((after calls).take x).1 = some (.stream recording)) ∧
        (Taken x calls → ((after calls).take x).1 = none)
  /-- Whoever takes what was decoded up front gets it. -/
  decoded : ∀ {x disk path mode}, Decoded x disk path mode calls → mode.contains .nonblocking = false →
    ¬Released x calls → ∃ recording, disk.decodeSound path = .ok recording ∧
      ((after calls).take x).1 = some (.decoded recording)
  /-- What was not given out, or was given up, is neither to be had nor to be given up. -/
  gone : ∀ {x}, (Issued x calls → Released x calls) → ((after calls).take x).1 = none ∧
    (after calls).release x = .error (.unknownSound x)
  released : ∀ {x}, Issued x calls → ¬Released x calls → ∃ l, (after calls).release x = .ok l
  live : (after calls).sounds.size + (answers calls).countP Answer.isReleased =
    (answers calls).countP Answer.isDecoded

/-- Whatever is asked of a new loader, no two sounds are confused. Each has a number of its own, a stream is handed out
once, and every sound is given up once, taken or not. -/
theorem streams_handed_out_once (calls : List Call) : HandsOut calls := by
  have hk := kept calls
  refine ⟨fun {disk path mode x} hd hi => ?_, fun {disk path mode e} hd => ?_, fun {x disk path mode} hx hm hr => ?_,
    fun {x disk path mode} hx hm hr => ?_, fun {x} hx => ?_, fun {x} hi hr => ?_, live_balance calls⟩
  · obtain ⟨s, -, hnumber, -⟩ := decode_eq_ok_iff.mp (Prod.ext hd rfl)
    have hbelow := hk.below hi
    rw [hnumber] at hbelow
    exact absurd hbelow (Nat.lt_irrefl _)
  · exact of_decode_error (Prod.ext hd rfl)
  · obtain ⟨s, hload, hfirst, hlater⟩ := hk.held hx hr
    obtain ⟨recording, hopen, rfl⟩ := stream_of_load hm hload
    refine ⟨recording, hopen, fun ht => ?_, fun ht => ?_⟩
    · rw [take_eq, hfirst ht]
      rfl
    · rw [take_eq, hlater ht]
      rfl
  · obtain ⟨s, hload, hfirst, hlater⟩ := hk.held hx hr
    obtain ⟨recording, hdecode, rfl⟩ := decoded_of_load hm hload
    refine ⟨recording, hdecode, ?_⟩
    rw [take_eq]
    by_cases ht : Taken x calls
    · rw [hlater ht]
      rfl
    · rw [hfirst ht]
      rfl
  · have hnone := hk.gone hx
    refine ⟨?_, release_eq_error hnone⟩
    rw [take_eq, hnone]
    rfl
  · obtain ⟨disk, path, mode, hx⟩ := hi
    obtain ⟨s, -, hfirst, hlater⟩ := hk.held hx hr
    by_cases ht : Taken x calls
    · exact ⟨_, release_eq_ok (hlater ht)⟩
    · exact ⟨_, release_eq_ok (hfirst ht)⟩

end StreamingLoader

end Soundstage
