/-!
# Voices

The voice of an entity picks the bank its voice lines are taken from. Main statement:
`ofLabel?_eq_some_iff`, a voice is read back exactly from its label.
-/

namespace Soundstage

inductive Voice
  | duck
  | robot
  | wolf
  | human
  | mute
  deriving DecidableEq, Repr

namespace Voice

instance : Inhabited Voice := ⟨.duck⟩

def all : List Voice := [duck, robot, wolf, human, mute]

/-- The lower-case name used in event names. -/
def label : Voice → String
  | duck => "duck"
  | robot => "robot"
  | wolf => "wolf"
  | human => "human"
  | mute => "mute"

def ofLabel? (name : String) : Option Voice :=
  all.find? fun voice => voice.label == name

theorem ofLabel?_label (voice : Voice) : ofLabel? voice.label = some voice := by
  cases voice <;> decide

theorem ofLabel?_eq_some_iff {name : String} {voice : Voice} :
    ofLabel? name = some voice ↔ name = voice.label := by
  constructor
  · intro h
    have := List.find?_some h
    simpa using (beq_iff_eq.mp this).symm
  · rintro rfl
    exact ofLabel?_label voice

/-- The event of the voice line `key`: the bank's name, the label, an underscore and the key. -/
def event (bank : String) (voice : Voice) (key : String) : String :=
  bank ++ voice.label ++ "_" ++ key

end Voice

end Soundstage
