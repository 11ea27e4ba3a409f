import Soundstage.Loader.Scripted
import Soundstage.Loader.Streaming

/-!
# Lawful loaders

What the bridge relies on: a decoded sound was not live before (`decode_ok`), a release takes away one
live sound (`release_ok`) and is never refused for one (`release_isOk`). Both loaders keep these
laws because they number their sounds upwards, which is what `Sane` says.
-/

namespace Soundstage

/-- A loader and the sounds it owns. -/
class LawfulLoader (L : Type) [Loader L] where
  IsLive : L → SoundId → Prop
  /-- No live sound can be handed out again. -/
  Sane : L → Prop
  decode_ok : ∀ {disk : Disk} {path : Path} {mode : DecodeMode} {l l' : L} {x : SoundId}, Sane l →
    Loader.decode disk path mode l = (.ok x, l') →
      ¬IsLive l x ∧ Sane l' ∧ ∀ y, IsLive l' y ↔ y = x ∨ IsLive l y
  decode_error : ∀ {disk : Disk} {path : Path} {mode : DecodeMode} {l l' : L} {e : AudioError}, Sane l →
    Loader.decode disk path mode l = (.error e, l') → Sane l' ∧ ∀ y, IsLive l' y ↔ IsLive l y
  release_ok : ∀ {x : SoundId} {l l' : L}, Sane l → Loader.release x l = .ok l' →
    Sane l' ∧ ∀ y, IsLive l' y ↔ y ≠ x ∧ IsLive l y
  release_isOk : ∀ {x : SoundId} {l : L}, IsLive l x → ∃ l', Loader.release x l = .ok l'
  decodeLines_quiet : ∀ {path : Path} {mode : DecodeMode},
    ∀ line ∈ Loader.decodeLines L path mode, line.level ≠ .error

/-! ### The scripted loader -/

namespace ScriptedLoader

def IsLive (l : ScriptedLoader) (x : SoundId) : Prop := l.live.get? x ≠ none

/-- Every live sound was handed out. -/
def Sane (l : ScriptedLoader) : Prop := ∀ x, l.IsLive x → x.val ≤ l.issued

theorem Sane.next_not_live {l : ScriptedLoader} (h : l.Sane) : ¬l.IsLive l.next :=
  fun hl => Nat.not_succ_le_self _ (h _ hl)

theorem isLive_decode {disk : Disk} {path : Path} {mode : DecodeMode} {l l' : ScriptedLoader} {x : SoundId}
    (h : l.decode disk path mode = (.ok x, l')) (y : SoundId) : l'.IsLive y ↔ y = x ∨ l.IsLive y := by
  obtain ⟨-, hlive⟩ := live_decode h
  simp only [IsLive, hlive, Table.get?_insert]
  split <;> simp [*]

theorem sane_decode {disk : Disk} {path : Path} {mode : DecodeMode} {l l' : ScriptedLoader} {x : SoundId}
    (hs : l.Sane) (h : l.decode disk path mode = (.ok x, l')) : l'.Sane := by
  intro y hy
  have hissued : l'.issued = l.issued + 1 ∧ x = l.next := by
    unfold decode at h
    split at h <;> cases h
    exact ⟨rfl, rfl⟩
  rcases (isLive_decode h y).mp hy with rfl | hy
  · rw [hissued.1, hissued.2]; exact Nat.le_refl _
  · rw [hissued.1]; exact Nat.le_succ_of_le (hs y hy)

theorem isLive_release {x : SoundId} {l l' : ScriptedLoader} (h : l.release x = .ok l') (y : SoundId) :
    l'.IsLive y ↔ y ≠ x ∧ l.IsLive y := by
  simp only [IsLive, live_release h, Table.get?_erase]
  split <;> simp [*]

theorem sane_release {x : SoundId} {l l' : ScriptedLoader} (hs : l.Sane) (h : l.release x = .ok l') :
    l'.Sane := by
  intro y hy
  have hissued : l'.issued = l.issued := by
    unfold release at h
    split at h <;> cases h
    rfl
  rw [hissued]
  exact hs y ((isLive_release h y).mp hy).2

theorem release_of_isLive {x : SoundId} {l : ScriptedLoader} (h : l.IsLive x) :
    ∃ l', l.release x = .ok l' := by
  cases hr : l.release x with
  | ok l' => exact ⟨l', rfl⟩
  | error e => exact absurd (release_eq_error_iff.mp hr).1 h

instance : LawfulLoader ScriptedLoader where
  IsLive := IsLive
  Sane := Sane
  decode_ok hs h := ⟨(live_decode h).1 ▸ hs.next_not_live, sane_decode hs h, isLive_decode h⟩
  decode_error hs h := by
    rw [live_of_decode_error h]
    exact ⟨hs, fun _ => Iff.rfl⟩
  release_ok hs h := ⟨sane_release hs h, isLive_release h⟩
  release_isOk := release_of_isLive
  decodeLines_quiet _ h := absurd h List.not_mem_nil

/-- The books of a loader: every decoded sound is live or was released. -/
structure Balanced (l : ScriptedLoader) : Prop where
  sane : l.Sane
  decodes : l.decodes = l.live.size + l.releases

namespace Balanced

variable {l l' : ScriptedLoader}

theorem ofFiles (files : List Path) : Balanced (.ofFiles files) :=
  ⟨fun _ hx => absurd rfl hx, rfl⟩

theorem withFiles (h : l.Balanced) (files : List Path) : Balanced { l with files } := ⟨h.sane, h.decodes⟩

theorem decode {disk : Disk} {path : Path} {mode : DecodeMode} (h : l.Balanced) :
    Balanced (l.decode disk path mode).2 := by
  cases hd : l.decode disk path mode with
  | mk result l' =>
    cases result with
    | error e => rw [live_of_decode_error hd]; exact ⟨h.sane, h.decodes⟩
    | ok x =>
      refine ⟨sane_decode h.sane hd, ?_⟩
      have hnone : l.live.get? l.next = none := Classical.not_not.mp h.sane.next_not_live
      unfold ScriptedLoader.decode at hd
      split at hd <;> cases hd
      have := Table.size_insert path hnone
      have := h.decodes
      dsimp only
      omega

theorem release {x : SoundId} (h : l.Balanced) (hr : l.release x = .ok l') : Balanced l' := by
  refine ⟨sane_release h.sane hr, ?_⟩
  unfold ScriptedLoader.release at hr
  split at hr <;> cases hr
  obtain ⟨path, hx⟩ := Table.contains_iff.mp ‹_›
  have := Table.size_erase hx
  have := h.decodes
  dsimp only
  omega

end Balanced

end ScriptedLoader

/-! ### The streaming loader -/

namespace StreamingLoader

def IsLive (l : StreamingLoader) (x : SoundId) : Prop := l.sounds.get? x ≠ none

/-- Every live sound stands before the next number. -/
def Sane (l : StreamingLoader) : Prop := ∀ x, l.IsLive x → x.val < l.next

theorem decode_eq_ok_iff {disk : Disk} {path : Path} {mode : DecodeMode} {l l' : StreamingLoader} {x : SoundId} :
    l.decode disk path mode = (.ok x, l') ↔
      ∃ sound, load disk path mode = .ok sound ∧ x = ⟨l.next⟩ ∧
        l' = { sounds := l.sounds.insert x sound, next := l.next + 1 } := by
  unfold decode
  cases load disk path mode with
  | error reason => simp
  | ok sound =>
    constructor
    · rintro ⟨⟩
      exact ⟨sound, rfl, rfl, rfl⟩
    · rintro ⟨_, ⟨⟩, rfl, rfl⟩
      rfl

theorem of_decode_error {disk : Disk} {path : Path} {mode : DecodeMode} {l l' : StreamingLoader} {e : AudioError}
    (h : l.decode disk path mode = (.error e, l')) : l' = l := by
  unfold decode at h
  split at h <;> cases h
  rfl

theorem isLive_insert (l : StreamingLoader) (x y : SoundId) (sound : LoadedSound) (next : Nat) :
    IsLive { sounds := l.sounds.insert x sound, next } y ↔ y = x ∨ l.IsLive y := by
  simp only [IsLive, Table.get?_insert]
  split <;> simp [*]

theorem isLive_release {x : SoundId} {l l' : StreamingLoader} (h : l.release x = .ok l') (y : SoundId) :
    l'.IsLive y ↔ y ≠ x ∧ l.IsLive y := by
  unfold release at h
  split at h <;> cases h
  simp only [IsLive, Table.get?_erase]
  split <;> simp [*]

theorem sane_release {x : SoundId} {l l' : StreamingLoader} (hs : l.Sane) (h : l.release x = .ok l') :
    l'.Sane := by
  intro y hy
  have hnext : l'.next = l.next := by
    unfold release at h
    split at h <;> cases h
    rfl
  rw [hnext]
  exact hs y ((isLive_release h y).mp hy).2

instance : LawfulLoader StreamingLoader where
  IsLive := IsLive
  Sane := Sane
  decode_ok {disk path mode l l' x} hs h := by
    obtain ⟨sound, -, rfl, rfl⟩ := decode_eq_ok_iff.mp h
    refine ⟨fun hl => Nat.lt_irrefl _ (hs _ hl), fun y hy => ?_, fun y => isLive_insert ..⟩
    rcases (isLive_insert ..).mp hy with rfl | hy
    · exact Nat.lt_succ_self _
    · exact Nat.lt_succ_of_lt (hs y hy)
  decode_error hs h := by
    rw [of_decode_error h]
    exact ⟨hs, fun _ => Iff.rfl⟩
  release_ok hs h := ⟨sane_release hs h, isLive_release h⟩
  release_isOk {x l} h := by
    have hc : l.sounds.contains x = true := Option.isSome_iff_ne_none.mpr h
    exact ⟨_, if_pos hc⟩
  decodeLines_quiet line h := by
    cases List.mem_singleton.mp h
    simp

end StreamingLoader

end Soundstage
