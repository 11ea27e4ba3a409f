import Mathlib.Data.List.DropRight
import Soundstage.Proofs.System.Coherence

/-!
# What is remembered of an entity

Its parameters, its place and its voice are what the requests made of them since the entity was last forgotten, and it
has an emitter if one of those requests addressed it. `Request.after` is what one request leaves of a memory, and
`memory?_perform` that it leaves just this; what a whole run leaves is the fold over the requests since the emitter is
there (`memory?_run`). Neither the engine nor what befalls it has a part in this. Main statement:
`memory_is_history`.
-/

namespace Soundstage

/-- What an emitter remembers of its entity, its handles apart. -/
structure Memory where
  params : Params := {}
  attributes : Attributes := .origin
  voice : Voice := .duck

/-- The memory of an entity that was moved, if it was. -/
def Memory.moved (m : Memory) (place : Option Vec3) : Memory :=
  { m with attributes := { m.attributes with position := place.getD m.attributes.position } }

@[simp]
theorem Memory.moved_none (m : Memory) : m.moved none = m := rfl

@[simp]
theorem Params.after_nil (p : Params) : p.after [] [] = p := rfl

namespace Emitter

def memory (em : Emitter) : Memory := ⟨em.params, em.attributes, em.voice⟩

@[simp]
theorem memory_ofEntity (entity : EntityId) : (ofEntity entity).memory = {} := rfl

section

variable {E L : Type} [Loader L] [Engine E L] (em : Emitter) (r : Rig E L)

@[simp]
theorem memory_post (event : String) (keep : Bool) : (em.post event keep r).2.1.memory = em.memory := by
  unfold post
  split <;> rfl

@[simp]
theorem memory_postFile (template : String) (file : Path) (keep : Bool) :
    (em.postFile template file keep r).2.1.memory = em.memory := by
  unfold postFile
  split <;> rfl

@[simp]
theorem memory_stopHandle (handle : Handle) (mode : StopMode) :
    (em.stopHandle handle mode r).2.1.memory = em.memory := by
  unfold stopHandle
  split
  · rfl
  split
  · rfl
  split
  · rfl
  split
  · rfl
  split <;> rfl

@[simp]
theorem memory_tick (place : Option Vec3) :
    (em.tick (place.getD em.position) r).2.1.memory = em.memory.moved place := by
  rw [tick_emitter]
  rfl

end

end Emitter

namespace System

variable {E L : Type}

def memory? (s : System E L) (entity : EntityId) : Option Memory := (s.emitter? entity).map Emitter.memory

theorem hasEmitter_iff (s : System E L) (entity : EntityId) :
    s.hasEmitter entity = true ↔ (s.memory? entity).isSome = true := by
  unfold hasEmitter Table.contains memory? emitter?
  rw [Option.isSome_map]

theorem memory?_withEmitter (s : System E L) (em : Emitter) (entity other : EntityId) :
    (s.withEmitter em entity).memory? other = if other = entity then some em.memory else s.memory? other := by
  unfold memory? emitter? withEmitter
  rw [Table.get?_insert]
  split <;> rfl

theorem resolve_memory (s : System E L) (entity : EntityId) :
    (s.resolve entity).1.memory = (s.memory? entity).getD {} := by
  unfold resolve memory?
  cases s.emitter? entity <;> rfl

theorem memory?_resolve (s : System E L) (entity other : EntityId) : (s.resolve entity).2.memory? other =
    if other = entity then some ((s.memory? other).getD {}) else s.memory? other := by
  unfold resolve
  split
  · rename_i em he
    by_cases h : other = entity
    · subst h
      simp [memory?, he]
    · rw [if_neg h]
  · rename_i he
    refine (memory?_withEmitter ..).trans ?_
    by_cases h : other = entity
    · subst h
      simp [memory?, he]
    · rw [if_neg h, if_neg h]
      rfl

/-- An emitter that acts is there afterwards. -/
theorem memory?_address {α : Type} (s : System E L) (entity other : EntityId)
    (act : Emitter → Rig E L → α × Emitter × Rig E L) (f : Memory → Memory)
    (hact : ∀ em r, (act em r).2.1.memory = f em.memory) : (s.address entity act).2.memory? other =
      if other = entity then some (f ((s.memory? other).getD {})) else s.memory? other := by
  refine (memory?_withEmitter ..).trans ?_
  by_cases h : other = entity
  · subst h
    rw [if_pos rfl, if_pos rfl, hact]
    exact congrArg (fun m => some (f m)) (s.resolve_memory other)
  · rw [if_neg h, if_neg h]
    exact (s.memory?_resolve entity other).trans (if_neg h)

theorem mem_order (s : System E L) (visit : Visit) (entity : EntityId) :
    s.hasEmitter entity = true → entity ∈ visit.order s.emitters.keys := by
  intro h
  rw [(visit.perm _).mem_iff]
  refine Classical.byContradiction fun hout => ?_
  have hnone := Table.get?_eq_none_iff.mpr hout
  simp [hasEmitter, Table.contains, hnone] at h

variable [Loader L] [Engine E L]

theorem memory?_stopHandle (s : System E L) (entity other : EntityId) (handle : Handle) (mode : StopMode) :
    (s.stopHandle entity handle mode).2.memory? other = s.memory? other := by
  unfold stopHandle
  split
  · rfl
  · rename_i em he
    refine (memory?_withEmitter ..).trans ?_
    by_cases h : other = entity
    · subst h
      simp [memory?, he]
    · rw [if_neg h]
      rfl

theorem memory?_tickEntity (transform : EntityId → Option Vec3) (s : System E L) (entity other : EntityId) :
    (s.tickEntity transform entity).2.memory? other =
      if other = entity then (s.memory? other).map (·.moved (transform other)) else s.memory? other := by
  unfold tickEntity
  split
  · rename_i he
    by_cases h : other = entity
    · subst h
      simp [memory?, he]
    · rw [if_neg h]
  · rename_i em he
    refine (memory?_withEmitter ..).trans ?_
    by_cases h : other = entity
    · subst h
      simp [memory?, he]
    · rw [if_neg h, if_neg h]
      rfl

/-- However often an entity is ticked, it ends up where its transform puts it. -/
theorem memory?_tickEach (transform : EntityId → Option Vec3) (order : List EntityId) (s : System E L)
    (other : EntityId) : (tickEach transform order s).2.memory? other =
      if other ∈ order then (s.memory? other).map (·.moved (transform other)) else s.memory? other := by
  induction order generalizing s with
  | nil => rfl
  | cons e rest ih =>
    refine (ih (s.tickEntity transform e).2).trans ?_
    rw [memory?_tickEntity]
    by_cases h : other = e
    · subst h
      rw [if_pos rfl, if_pos (List.mem_cons_self ..)]
      split
      · cases s.memory? other <;> cases transform other <;> rfl
      · rfl
    · simp only [h, List.mem_cons, false_or, if_false]

/-- Entities that are not there have no place to move from. -/
theorem memory?_tickIn {order : List EntityId} {s : System E L} (transform : EntityId → Option Vec3)
    {entity : EntityId} (h : s.hasEmitter entity = true → entity ∈ order) :
    (s.tickIn order transform).2.memory? entity = (s.memory? entity).map (·.moved (transform entity)) := by
  refine (memory?_tickEach transform order _ entity).trans ?_
  change (if entity ∈ order then (s.memory? entity).map _ else s.memory? entity) = _
  split
  · rfl
  · have hnone : s.memory? entity = none := by
      rw [← Option.not_isSome_iff_eq_none, ← hasEmitter_iff]
      exact fun hem => ‹entity ∉ order› (h hem)
    rw [hnone]
    rfl

theorem memory?_destroyEntity (s : System E L) (entity other : EntityId) :
    (s.destroyEntity entity).memory? other = if other = entity then none else s.memory? other := by
  unfold destroyEntity
  split
  · rename_i he
    by_cases h : other = entity
    · subst h
      simp [memory?, he]
    · rw [if_neg h]
  · by_cases h : other = entity
    · subst h
      simp [memory?, emitter?, say]
    · rw [if_neg h]
      simp [memory?, emitter?, say, Table.get?_erase_of_ne _ h]

/-! ### The config stays -/

omit [Loader L] [Engine E L] in
theorem config_resolve (s : System E L) (entity : EntityId) : (s.resolve entity).2.config = s.config := by
  unfold resolve
  split <;> rfl

theorem config_tickEach (transform : EntityId → Option Vec3) (order : List EntityId) (s : System E L) :
    (tickEach transform order s).2.config = s.config := by
  induction order generalizing s with
  | nil => rfl
  | cons e rest ih =>
    refine (ih (s.tickEntity transform e).2).trans ?_
    unfold tickEntity
    split <;> rfl

theorem config_quietEach (order : List EntityId) (s : System E L) : (order.foldl quietEntity s).config = s.config := by
  induction order generalizing s with
  | nil => rfl
  | cons e rest ih =>
    refine (ih (s.quietEntity e)).trans ?_
    unfold quietEntity
    split <;> rfl

theorem config_perform (s : System E L) (q : Request) : (q.perform s).2.config = s.config := by
  cases q with
  | resolve e | post e | postFile e | postCustom e | postVoice e | setVoice e | setPosition e | setFloat e
  | setLabel e => exact s.config_resolve e
  | stop e event mode =>
    change (s.stop e event mode).2.config = _
    unfold stop
    split <;> rfl
  | stopHandle e handle mode =>
    change (s.stopHandle e handle mode).2.config = _
    unfold stopHandle
    split <;> rfl
  | stopAll e mode =>
    change (s.stopAll e mode).2.config = _
    unfold stopAll
    split <;> rfl
  | destroyEntity e =>
    change (s.destroyEntity e).config = _
    unfold destroyEntity
    split <;> rfl
  | playMusic | stopMusic | setListener | setListenerPosition => rfl
  | tick visit transform => exact config_tickEach transform _ _
  | shutdown visit => exact config_quietEach _ s

end System

namespace Request

/-- Whether the entity is forgotten. -/
def forgets (entity : EntityId) : Request → Bool
  | destroyEntity e => e = entity
  | shutdown _ => true
  | _ => false

/-- Whether the entity has an emitter from then on, as it is addressed by something that does not just stop. -/
def makes (entity : EntityId) : Request → Bool
  | resolve e | post e .. | postFile e .. | postCustom e .. | postVoice e _ | setVoice e _ | setPosition e _
  | setFloat e .. | setLabel e .. => e = entity
  | _ => false

/-- The voice that the entity is given. -/
def voice? (entity : EntityId) : Request → Option Voice
  | setVoice e voice => if e = entity then some voice else none
  | _ => none

/-- Where the entity is placed: by itself, or by its transform at a tick. -/
def place? (entity : EntityId) : Request → Option Vec3
  | setPosition e position => if e = entity then some position else none
  | tick _ transform => transform entity
  | _ => none

/-- What a request makes of a memory that is kept. -/
def after (entity : EntityId) (q : Request) (m : Memory) : Memory where
  params := m.params.after (q.float? (.entity entity)).toList (q.label? (.entity entity)).toList
  attributes := (m.moved (q.place? entity)).attributes
  voice := (q.voice? entity).getD m.voice

section

variable {E L : Type} {s s' : System E L} {entity : EntityId} {q : Request}

/-- What is remembered when `q` is done: it is as it was, or new if `q` makes it, and then as `q` leaves it. -/
def Leaves (q : Request) (entity : EntityId) (s s' : System E L) : Prop :=
  s'.memory? entity = if q.forgets entity then none
    else ((s.memory? entity).or (if q.makes entity then some {} else none)).map (q.after entity)

theorem Leaves.still (hforgets : q.forgets entity = false) (hmakes : q.makes entity = false)
    (hafter : ∀ m, q.after entity m = m) (h : s'.memory? entity = s.memory? entity) : q.Leaves entity s s' := by
  unfold Leaves
  rw [hforgets, hmakes, h]
  cases s.memory? entity <;> simp [hafter]

theorem Leaves.made {e : EntityId} (f : Memory → Memory) (hforgets : q.forgets entity = false)
    (hmakes : q.makes entity = decide (e = entity)) (hafter : ∀ m, q.after entity m = if entity = e then f m else m)
    (h : s'.memory? entity = if entity = e then some (f ((s.memory? entity).getD {})) else s.memory? entity) :
    q.Leaves entity s s' := by
  by_cases he : entity = e
  · subst he
    unfold Leaves
    rw [hforgets, hmakes, h]
    cases s.memory? entity <;> simp [hafter]
  · rw [if_neg he] at h
    refine .still hforgets ?_ (fun m => ?_) h
    · rw [hmakes, decide_eq_false (Ne.symm he)]
    · rw [hafter, if_neg he]

theorem Leaves.address {α : Type} {e : EntityId} (act : Emitter → Rig E L → α × Emitter × Rig E L)
    (f : Memory → Memory)
    (hforgets : q.forgets entity = false) (hmakes : q.makes entity = decide (e = entity))
    (hafter : ∀ m, q.after entity m = if entity = e then f m else m)
    (hact : ∀ em r, (act em r).2.1.memory = f em.memory) : q.Leaves entity s (s.address e act).2 :=
  .made f hforgets hmakes hafter (s.memory?_address e entity act f hact)

end

variable {E L : Type} [Loader L] [Engine E L]

/-- A request does to what is remembered of an entity just what it says. -/
theorem leaves (s : System E L) (q : Request) (entity : EntityId) : q.Leaves entity s (q.perform s).2 := by
  cases q with
  | resolve e =>
    exact .made id rfl rfl (fun m => (ite_self m).symm) (s.memory?_resolve e entity)
  | post e event keep => exact .address _ id rfl rfl (fun m => (ite_self m).symm) fun em r => em.memory_post ..
  | postFile e template file keep =>
    exact .address _ id rfl rfl (fun m => (ite_self m).symm) fun em r => em.memory_postFile ..
  | postCustom e file looping keep =>
    exact .address _ id rfl rfl (fun m => (ite_self m).symm) fun em r => em.memory_postFile ..
  | postVoice e key => exact .address _ id rfl rfl (fun m => (ite_self m).symm) fun em r => em.memory_post ..
  | setVoice e voice =>
    refine .address (fun em r => ((), em.setVoice voice, r)) ({ · with voice }) rfl rfl (fun m => ?_) fun em r => rfl
    rcases eq_or_ne entity e with rfl | h
    · simp [after, voice?, place?, float?, label?]
    · simp [after, voice?, place?, float?, label?, h, h.symm]
  | setPosition e position =>
    refine .address (fun em r => ((), em.setPosition position, r))
      (fun m => { m with attributes := (m.moved (some position)).attributes }) rfl rfl (fun m => ?_) fun em r => rfl
    rcases eq_or_ne entity e with rfl | h
    · simp [after, voice?, place?, float?, label?]
    · simp [after, voice?, place?, float?, label?, h, h.symm]
  | setFloat e name value =>
    refine .address (fun em r => ((), em.setFloat name value r))
      (fun m => { m with params := m.params.after [(name, value)] [] }) rfl rfl (fun m => ?_) fun em r => rfl
    rcases eq_or_ne entity e with rfl | h
    · simp [after, voice?, place?, float?, label?]
    · simp [after, voice?, place?, float?, label?, h]
  | setLabel e name label =>
    refine .address (fun em r => ((), em.setLabel name label r))
      (fun m => { m with params := m.params.after [] [(name, label)] }) rfl rfl (fun m => ?_) fun em r => rfl
    rcases eq_or_ne entity e with rfl | h
    · simp [after, voice?, place?, float?, label?]
    · simp [after, voice?, place?, float?, label?, h]
  | stop e event mode =>
    refine .still rfl rfl (fun m => rfl) ?_
    change (s.stop e event mode).2.memory? entity = _
    unfold System.stop
    split <;> rfl
  | stopHandle e handle mode => exact .still rfl rfl (fun m => rfl) (s.memory?_stopHandle e entity handle mode)
  | stopAll e mode =>
    refine .still rfl rfl (fun m => rfl) ?_
    change (s.stopAll e mode).2.memory? entity = _
    unfold System.stopAll
    split <;> rfl
  | destroyEntity e =>
    refine (s.memory?_destroyEntity e entity).trans ?_
    by_cases h : entity = e
    · simp [forgets, h]
    · cases s.memory? entity <;> simp [forgets, makes, h, Ne.symm h]
      rfl
  | playMusic file => exact .still rfl rfl (fun m => rfl) rfl
  | stopMusic mode => exact .still rfl rfl (fun m => rfl) rfl
  | setListener attributes => exact .still rfl rfl (fun m => rfl) rfl
  | setListenerPosition position => exact .still rfl rfl (fun m => rfl) rfl
  | tick visit transform =>
    refine (System.memory?_tickIn transform (s.mem_order visit entity)).trans ?_
    cases s.memory? entity <;> rfl
  | shutdown visit => rfl

/-! ### Histories -/

/-- The requests since the entity was last forgotten. -/
def period (entity : EntityId) (qs : List Request) : List Request := qs.rtakeWhile fun q => !q.forgets entity

/-- The requests since the entity has its emitter, with the one that made it. -/
def life (entity : EntityId) (qs : List Request) : List Request :=
  (period entity qs).dropWhile fun q => !q.makes entity

section

variable {entity : EntityId} {qs : List Request} {q : Request}

theorem life_eq_nil_iff : life entity qs = [] ↔ ∀ q ∈ period entity qs, q.makes entity = false := by
  simp [life, List.dropWhile_eq_nil_iff]

theorem life_concat_of_forgets (h : q.forgets entity = true) : life entity (qs ++ [q]) = [] := by
  unfold life period
  rw [List.rtakeWhile_concat_neg _ _ _ (by simp [h])]
  rfl

theorem life_concat (h : q.forgets entity = false) : life entity (qs ++ [q]) =
    if life entity qs ≠ [] ∨ q.makes entity = true then life entity qs ++ [q] else [] := by
  unfold life period
  rw [List.rtakeWhile_concat_pos _ _ _ (by simp [h]), List.dropWhile_append]
  generalize (qs.rtakeWhile fun q => !q.forgets entity).dropWhile (fun q => !q.makes entity) = l
  cases l <;> cases hm : q.makes entity <;> simp [hm]

/-- What only requests that make the emitter do is not done before its life. -/
theorem filterMap_life {α : Type} {f : Request → Option α} (hf : ∀ q, q.makes entity = false → f q = none) :
    (life entity qs).filterMap f = (period entity qs).filterMap f := by
  have before : ((period entity qs).takeWhile fun q => !q.makes entity).filterMap f = [] := by
    refine List.filterMap_eq_nil_iff.mpr fun q hq => hf q ?_
    simpa using List.mem_takeWhile_imp hq
  calc (life entity qs).filterMap f
      = (((period entity qs).takeWhile fun q => !q.makes entity) ++ life entity qs).filterMap f := by
        rw [List.filterMap_append, before, List.nil_append]
    _ = (period entity qs).filterMap f := by rw [life, List.takeWhile_append_dropWhile]

theorem float?_of_not_makes (q : Request) (h : q.makes entity = false) : q.float? (.entity entity) = none := by
  cases q <;> first | rfl | simpa [makes, float?, eq_comm] using h

theorem label?_of_not_makes (q : Request) (h : q.makes entity = false) : q.label? (.entity entity) = none := by
  cases q <;> first | rfl | simpa [makes, label?, eq_comm] using h

theorem voice?_of_not_makes (q : Request) (h : q.makes entity = false) : q.voice? entity = none := by
  cases q <;> first | rfl | simpa [makes, voice?] using h

end

/-- What is remembered after these requests. -/
def recollect (entity : EntityId) (qs : List Request) : Memory := qs.foldl (fun m q => q.after entity m) {}

theorem recollect_concat (entity : EntityId) (qs : List Request) (q : Request) :
    recollect entity (qs ++ [q]) = q.after entity (recollect entity qs) := List.foldl_append

theorem filterMap_singleton {α : Type} (f : Request → Option α) (q : Request) : [q].filterMap f = (f q).toList := by
  cases h : f q <;> simp [h]

theorem recollect_params (entity : EntityId) (qs : List Request) : (recollect entity qs).params =
    ({} : Params).after (qs.filterMap (float? (.entity entity))) (qs.filterMap (label? (.entity entity))) := by
  induction qs using List.reverseRecOn with
  | nil => rfl
  | append_singleton qs q ih =>
    rw [recollect_concat, List.filterMap_append, List.filterMap_append, ← Params.after_after, ← ih, filterMap_singleton,
      filterMap_singleton]
    rfl

theorem recollect_voice (entity : EntityId) (qs : List Request) :
    (recollect entity qs).voice = (qs.filterMap (voice? entity)).getLast?.getD .duck := by
  induction qs using List.reverseRecOn with
  | nil => rfl
  | append_singleton qs q ih =>
    rw [recollect_concat]
    unfold after
    rw [ih]
    cases h : q.voice? entity <;> simp [h]

theorem recollect_attributes (entity : EntityId) (qs : List Request) :
    (recollect entity qs).attributes = .ofPosition ((qs.filterMap (place? entity)).getLast?.getD .zero) := by
  induction qs using List.reverseRecOn with
  | nil => rfl
  | append_singleton qs q ih =>
    rw [recollect_concat]
    unfold after Memory.moved
    rw [ih]
    cases h : q.place? entity <;> simp [h, Attributes.ofPosition]

end Request

namespace Turn

variable {E L V : Type}

/-- What was asked for, oldest first. -/
def requests (turns : List (Turn V)) : List Request :=
  turns.filterMap fun
    | request q => some q
    | event _ => none

theorem requests_request (turns : List (Turn V)) (q : Request) :
    requests (turns ++ [request q]) = requests turns ++ [q] := by simp [requests]

theorem requests_event (turns : List (Turn V)) (v : V) : requests (turns ++ [event v]) = requests turns := by
  simp [requests]

variable [Loader L] [Engine E L]

theorem config_run (happen : V → Rig E L → Rig E L) (turns : List (Turn V)) (s : System E L) :
    (run happen turns s).config = s.config := by
  induction turns generalizing s with
  | nil => rfl
  | cons t rest ih =>
    refine (ih _).trans ?_
    cases t with
    | request q => exact s.config_perform q
    | event v => rfl

/-- Nothing but requests leaves a trace in what is remembered. -/
theorem memory?_run (happen : V → Rig E L → Rig E L) (turns : List (Turn V)) {s : System E L} {entity : EntityId}
    (h : s.memory? entity = none) : (run happen turns s).memory? entity =
      let life := Request.life entity (requests turns)
      if life = [] then none else some (Request.recollect entity life) := by
  induction turns using List.reverseRecOn with
  | nil => exact h
  | append_singleton turns t ih =>
    rw [run_append]
    cases t with
    | event v =>
      rw [requests_event]
      exact ih
    | request q =>
      rw [requests_request]
      refine (q.leaves _ entity).trans ?_
      cases hf : q.forgets entity with
      | true =>
        rw [Request.life_concat_of_forgets hf]
        rfl
      | false =>
        rw [ih, Request.life_concat hf]
        by_cases hlife : Request.life entity (requests turns) = []
        · cases hmakes : q.makes entity <;> simp [hlife, Request.recollect]
        · simp [hlife, Request.recollect_concat]

end Turn

/-- What is remembered of an entity is its history. Whatever the engine, at every point of every run, an entity has an
emitter if it was addressed by something that does not just stop since it was last forgotten. The emitter then reads
under every name the number that was last set under it in that time, and so the label; its voice is the one it was
last given, and its place where it was last put, by itself or by a tick that found the emitter there and had a
transform; and it faces forward. Its voice lines are named by that voice. -/
theorem memory_is_history {E L V : Type} [Loader L] [Engine E L] (happen : V → Rig E L → Rig E L) (engine : E)
    (config : Config) (loader : L) (disk : Disk) (turns : List (Turn V)) (entity : EntityId) :
    let s := Turn.run happen turns (System.ofEngine engine config loader disk)
    let period := Request.period entity (Turn.requests turns)
    let life := Request.life entity (Turn.requests turns)
    let voice := (period.filterMap (Request.voice? entity)).getLast?.getD .duck
    (s.hasEmitter entity = true ↔ ∃ q ∈ period, q.makes entity = true) ∧
    (∀ em, s.emitter? entity = some em →
      (∀ name, em.params.float? name =
        ScriptedInstance.lastOf (period.filterMap (Request.float? (.entity entity))) name) ∧
      (∀ name, em.params.label? name =
        ScriptedInstance.lastOf (period.filterMap (Request.label? (.entity entity))) name) ∧
      em.voice = voice ∧
      em.position = (life.filterMap (Request.place? entity)).getLast?.getD .zero ∧ em.attributes.forward = .forward) ∧
    ∀ key, s.postVoice entity key = s.post entity (config.voiceBank ++ voice.label ++ "_" ++ key) false := by
  intro s period life voice
  have hrun : s.memory? entity = if life = [] then none else some (Request.recollect entity life) :=
    Turn.memory?_run happen turns rfl
  have hvoice : (Request.recollect entity life).voice = voice := by
    rw [Request.recollect_voice, Request.filterMap_life Request.voice?_of_not_makes]
  refine ⟨?_, fun em hem => ?_, fun key => ?_⟩
  · have hlife : life = [] ↔ ∀ q ∈ period, q.makes entity = false := Request.life_eq_nil_iff
    rw [System.hasEmitter_iff, hrun]
    split
    · simpa using hlife.mp ‹_›
    · simpa using mt hlife.mpr ‹_›
  · have hmem : em.memory = Request.recollect entity life := by
      unfold System.memory? at hrun
      rw [hem] at hrun
      split at hrun
      · cases hrun
      · exact Option.some.inj hrun
    have hparams : em.params = _ := (congrArg Memory.params hmem).trans (Request.recollect_params entity life)
    have hattributes : em.attributes = _ :=
      (congrArg Memory.attributes hmem).trans (Request.recollect_attributes entity life)
    rw [Request.filterMap_life Request.float?_of_not_makes, Request.filterMap_life Request.label?_of_not_makes]
      at hparams
    refine ⟨fun name => ?_, fun name => ?_, (congrArg Memory.voice hmem).trans hvoice, ?_, ?_⟩
    · rw [hparams]
      exact (ScriptedInstance.lastOf_append .empty _ name).symm
    · rw [hparams]
      exact (ScriptedInstance.lastOf_append .empty _ name).symm
    · exact congrArg Attributes.position hattributes
    · exact congrArg Attributes.forward hattributes
  · have hresolve : (s.resolve entity).1.voice = voice := by
      rw [← hvoice, show (s.resolve entity).1.voice = _ from congrArg Memory.voice (s.resolve_memory entity), hrun]
      split
      · rw [‹life = []›]
        rfl
      · rfl
    have hconfig : s.config = config := Turn.config_run happen turns _
    unfold System.postVoice System.post System.address
    rw [hconfig]
    simp only [hresolve]
    rfl

end Soundstage
