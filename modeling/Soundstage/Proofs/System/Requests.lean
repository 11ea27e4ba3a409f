import Soundstage.Proofs.System.Turns

/-!
# Requests

All that a host can ask of a system, as data, so that a run is a list. Emitters are visited in any
order: a `Visit` is a way to order entities, and it is part of the request. Main statement: a
request that finds the system in order is a run of plain moves, after which a post or a parameter
follows if it was asked for one (`Request.moves`); so what moves keep, requests keep.
-/

namespace Soundstage

open Playable Staged Function

/-- A way to go through entities. -/
structure Visit where
  order : List EntityId → List EntityId
  perm : ∀ entities, (order entities).Perm entities

inductive Request
  | resolve (entity : EntityId)
  | post (entity : EntityId) (event : String) (keep : Bool)
  | postFile (entity : EntityId) (template : String) (file : Path) (keep : Bool)
  | postCustom (entity : EntityId) (file : Path) (looping keep : Bool)
  | postVoice (entity : EntityId) (key : String)
  | setVoice (entity : EntityId) (voice : Voice)
  | setPosition (entity : EntityId) (position : Vec3)
  | setFloat (entity : EntityId) (name : String) (value : Float32)
  | setLabel (entity : EntityId) (name label : String)
  | stop (entity : EntityId) (event : String) (mode : StopMode)
  | stopHandle (entity : EntityId) (handle : Handle) (mode : StopMode)
  | stopAll (entity : EntityId) (mode : StopMode)
  | destroyEntity (entity : EntityId)
  | playMusic (file : Path)
  | stopMusic (mode : StopMode)
  | setListener (attributes : Attributes)
  | setListenerPosition (position : Vec3)
  | tick (visit : Visit) (transform : EntityId → Option Vec3)
  | shutdown (visit : Visit)

namespace Request

/-- Whose emitter posts, if the request is a post. -/
def poster? : Request → Option Owner
  | post entity .. | postFile entity .. | postCustom entity .. | postVoice entity _ => some (.entity entity)
  | playMusic _ => some .music
  | _ => none

/-- The number that is set on the entity of an owner. -/
def float? (o : Owner) : Request → Option (String × Float32)
  | setFloat entity name value => if o = .entity entity then some (name, value) else none
  | _ => none

/-- The label that is set on the entity of an owner. -/
def label? (o : Owner) : Request → Option (String × String)
  | setLabel entity name label => if o = .entity entity then some (name, label) else none
  | _ => none

/-- The moves of a request that are not plain, with the handle that it answers. -/
def outcome (q : Request) (answer : Option Handle) : List Deed :=
  match q with
  | setFloat entity name value => [.setFloat (.entity entity) name value]
  | setLabel entity name label => [.setLabel (.entity entity) name label]
  | destroyEntity entity => [.forget (· = entity)]
  | shutdown _ => [.forget fun _ => true]
  | q => (q.poster?.bind fun o => answer.map (Deed.post o)).toList

theorem outcome_cases (q : Request) (answer : Option Handle) :
    q.outcome answer = [] ∨ ∃ d, q.outcome answer = [d] := by
  cases q <;> cases answer <;> simp [outcome, poster?]

theorem post_mem_outcome {q : Request} {answer : Option Handle} {o : Owner} {g : Handle}
    (h : Deed.post o g ∈ q.outcome answer) : q.poster? = some o ∧ answer = some g := by
  cases q <;> cases answer <;> simp_all [outcome, poster?]

variable {E L : Type} [Loader L] [Engine E L]

/-- Do what is asked, and answer the handle of what was posted. -/
def perform (q : Request) (s : System E L) : Option Handle × System E L :=
  match q with
  | resolve entity => (none, (s.resolve entity).2)
  | post entity event keep => s.post entity event keep
  | postFile entity template file keep => s.postFile entity template file keep
  | postCustom entity file looping keep => s.postCustom entity file looping keep
  | postVoice entity key => s.postVoice entity key
  | setVoice entity voice => (none, s.setVoice entity voice)
  | setPosition entity position => (none, s.setPosition entity position)
  | setFloat entity name value => (none, s.setFloat entity name value)
  | setLabel entity name label => (none, s.setLabel entity name label)
  | stop entity event mode => (none, (s.stop entity event mode).2)
  | stopHandle entity handle mode => (none, (s.stopHandle entity handle mode).2)
  | stopAll entity mode => (none, (s.stopAll entity mode).2)
  | destroyEntity entity => (none, s.destroyEntity entity)
  | playMusic file => s.playMusic file
  | stopMusic mode => (none, (s.stopMusic mode).2)
  | setListener attributes => (none, s.setListener attributes)
  | setListenerPosition position => (none, s.setListenerPosition position)
  | tick visit transform => (none, (s.tickIn (visit.order s.emitters.keys) transform).2)
  | shutdown visit => (none, s.shutdownIn (visit.order s.emitters.keys))

/-- Who answers a handle has posted it. -/
theorem outcome_of_answer {q : Request} {s : System E L} {g : Handle}
    (h : (q.perform s).1 = some g) : ∃ o, q.outcome (some g) = [.post o g] := by
  cases q <;> first | exact ⟨_, rfl⟩ | cases h

end Request

/-! ### Views of a system -/

namespace System

section

variable {E L : Type} {s : System E L} {em : Emitter} {r : Rig E L} {entity : EntityId}

theorem emitterOf_withEmitter (s : System E L) (em : Emitter) (entity : EntityId) (o : Owner) :
    (s.withEmitter em entity).emitterOf o = if o = .entity entity then some em else s.emitterOf o := by
  rcases o with e | _
  · by_cases h : e = entity
    · subst h; simp [withEmitter, emitterOf, emitter?]
    · simp [withEmitter, emitterOf, emitter?, Table.get?_insert_of_ne _ _ h, h]
  · simp [withEmitter, emitterOf]

theorem view_withEmitter (s : System E L) (em : Emitter) (entity : EntityId) :
    (s.withEmitter em entity).view = s.view.put (.entity entity) em s.rig := by
  have hh : (s.withEmitter em entity).handlesOf = update s.handlesOf (.entity entity) em.handles := by
    funext o
    unfold handlesOf
    rw [emitterOf_withEmitter]
    by_cases h : o = .entity entity
    · subst h; simp
    · simp [h]
  have hp : (s.withEmitter em entity).paramsOf = update s.paramsOf (.entity entity) em.params := by
    funext o
    unfold paramsOf
    rw [emitterOf_withEmitter]
    by_cases h : o = .entity entity
    · subst h; simp
    · simp [h]
  unfold view View.put
  rw [hh, hp]
  rfl

theorem view_withMusic (s : System E L) (em : Emitter) (r : Rig E L) :
    { s with rig := r, music := em }.view = s.view.put .music em r := by
  have hh : { s with rig := r, music := em }.handlesOf = update s.handlesOf .music em.handles := by
    funext o
    cases o with
    | entity e => simp [handlesOf, emitterOf, emitter?]
    | music => simp [handlesOf, emitterOf]
  have hp : { s with rig := r, music := em }.paramsOf = update s.paramsOf .music em.params := by
    funext o
    cases o with
    | entity e => simp [paramsOf, emitterOf, emitter?]
    | music => simp [paramsOf, emitterOf]
  unfold view View.put
  rw [hh, hp]

theorem view_erase (s : System E L) (r : Rig E L) (entity : EntityId) :
    { s with rig := r, emitters := s.emitters.erase entity }.view = (s.view.withRig r).without (· = entity) := by
  unfold view View.without View.withRig
  congr 1 <;> funext o <;> rcases o with e | _
  · by_cases h : e = entity
    · subst h; simp [handlesOf, emitterOf, emitter?]
    · simp [handlesOf, emitterOf, emitter?, Table.get?_erase_of_ne _ h, h]
  · rfl
  · by_cases h : e = entity
    · subst h; simp [paramsOf, emitterOf, emitter?]
    · simp [paramsOf, emitterOf, emitter?, Table.get?_erase_of_ne _ h, h]
  · rfl

/-- All that is left without entities is the music. -/
theorem view_forget (s : System E L) (em : Emitter) (r : Rig E L) :
    { s with rig := r, music := em, emitters := .empty }.view = (s.view.put .music em r).without fun _ => true := by
  unfold view View.put View.without
  congr 1 <;> funext o <;> rcases o with e | _
  · rfl
  · simp [handlesOf, emitterOf]
  · rfl
  · simp [paramsOf, emitterOf]

theorem reads_emitter (h : s.emitter? entity = some em) : s.view.Reads (.entity entity) em := by
  constructor <;> simp [view, handlesOf, paramsOf, emitterOf, h]

/-- To its owner an emitter that is not there looks like a new one. -/
theorem reads_ofEntity (h : s.emitter? entity = none) : s.view.Reads (.entity entity) (.ofEntity entity) := by
  constructor <;> simp [view, handlesOf, paramsOf, emitterOf, h, Emitter.ofEntity]

theorem reads_music (s : System E L) : s.view.Reads .music s.music := ⟨rfl, rfl⟩

theorem reads_emitterOf {o : Owner} (h : s.emitterOf o = some em) : s.view.Reads o em := by
  cases o with
  | entity entity => exact reads_emitter h
  | music =>
    cases h
    exact reads_music s

theorem reads_resolve (s : System E L) (entity : EntityId) :
    (s.resolve entity).2.view.Reads (.entity entity) (s.resolve entity).1 := by
  unfold resolve
  cases he : s.emitter? entity with
  | some em => exact reads_emitter he
  | none =>
    dsimp only
    rw [view_withEmitter]
    exact View.reads_put

theorem view_address {α : Type} (s : System E L) (entity : EntityId) (act : Emitter → Rig E L → α × Emitter × Rig E L) :
    (s.address entity act).2.view = (s.resolve entity).2.view.put (.entity entity)
      (act (s.resolve entity).1 (s.resolve entity).2.rig).2.1 (act (s.resolve entity).1 (s.resolve entity).2.rig).2.2 :=
  view_withEmitter ..

end

section

variable {E L X S : Type} [Loader L] [Engine E L] [Staged E X S] [Playable X S] {s : System E L}

theorem resolve_plainly (s : System E L) (entity : EntityId) : Plainly s.view (s.resolve entity).2.view := by
  unfold resolve
  cases he : s.emitter? entity with
  | some em => exact .refl _
  | none =>
    have hv := reads_ofEntity he
    have hsay := Wrote.say s.rig .debug ("Audio: created emitter for " ++ entity.text) (by decide)
    exact (Plainly.calm hv hsay).cast (view_withEmitter _ _ _)

theorem address_view {α : Type} (s : System E L) (entity : EntityId)
    (act : Emitter → Rig E L → α × Emitter × Rig E L) : ∃ v em, Plainly s.view v ∧ v.Reads (.entity entity) em ∧
      (s.address entity act).1 = (act em v.rig).1 ∧
        (s.address entity act).2.view = v.put (.entity entity) (act em v.rig).2.1 (act em v.rig).2.2 :=
  ⟨(s.resolve entity).2.view, (s.resolve entity).1, s.resolve_plainly entity, s.reads_resolve entity, rfl,
    s.view_address entity act⟩

theorem handlesOf_quietEntity {entity other : EntityId} (h : other ≠ entity) :
    (s.quietEntity entity).view.handles (.entity other) = s.view.handles (.entity other) := by
  unfold quietEntity
  cases he : s.emitter? entity with
  | none => rfl
  | some em =>
    dsimp only
    rw [view_withEmitter]
    exact View.handles_put_of_ne (by simpa using h)

/-- What only an emitter itself remembers is no move. -/
theorem address_still (s : System E L) (entity : EntityId) (f : Emitter → Emitter)
    (hh : ∀ em, (f em).handles = em.handles) (hp : ∀ em, (f em).params = em.params) :
    Plainly s.view (s.address entity fun em r => ((), f em, r)).2.view := by
  obtain ⟨v, em, hv, hr, -, he⟩ := s.address_view entity fun em r => ((), f em, r)
  have hr' : v.Reads (.entity entity) (f em) := ⟨(hh em).trans hr.handles, (hp em).trans hr.params⟩
  exact hv.cast (he.trans (hr'.withRig_eq (r := v.rig)).symm)

end

section

variable {E L X S : Type} [Loader L] [LawfulLoader L] [Engine E L] [Staged E X S] [Playable X S]
  [LawfulEngine E L X S] {s : System E L} {em : Emitter} {entity : EntityId}

theorem address_play (s : System E L) (entity : EntityId)
    {act : Emitter → Rig E L → Option Handle × Emitter × Rig E L} (hact : ∀ em r, ∃ c, act em r = em.play c r) :
    ∃ w, Plainly s.view w ∧
      Moves w ((s.address entity act).1.map (Deed.post (.entity entity))).toList (s.address entity act).2.view := by
  obtain ⟨v, em, hp, hv, ha, he⟩ := s.address_view entity act
  obtain ⟨c, hc⟩ := hact em v.rig
  obtain ⟨w, hw, hm⟩ := Moves.play hv c
  rw [he, ha, hc]
  exact ⟨w, hp.trans hw, hm⟩

theorem setListener_plainly (s : System E L) (attributes : Attributes) :
    Plainly s.view (s.setListener attributes).view :=
  .single (.calm (s.rig.setListener_wrote attributes)) rfl

/-! ### Stopping -/

theorem stop_plainly (s : System E L) (entity : EntityId) (event : String) (mode : StopMode) :
    Plainly s.view (s.stop entity event mode).2.view := by
  unfold stop
  cases he : s.emitter? entity with
  | none => exact .refl _
  | some em => exact (Plainly.stop (reads_emitter he) event mode).cast (reads_emitter he).withRig_eq

theorem stopAll_plainly (h : Orderly s.view) (entity : EntityId) (mode : StopMode) :
    Plainly s.view (s.stopAll entity mode).2.view := by
  unfold stopAll
  cases he : s.emitter? entity with
  | none => exact .refl _
  | some em => exact (Plainly.stopAll h (reads_emitter he) mode).cast (reads_emitter he).withRig_eq

theorem stopHandle_plainly (h : Orderly s.view) (entity : EntityId) (handle : Handle) (mode : StopMode) :
    Plainly s.view (s.stopHandle entity handle mode).2.view := by
  unfold stopHandle
  cases he : s.emitter? entity with
  | none => exact .refl _
  | some em => exact (Plainly.stopHandle h (reads_emitter he) handle mode).cast (view_withEmitter _ _ _)

theorem destroyEntity_moves (h : Orderly s.view) (entity : EntityId) :
    ∃ w, Plainly s.view w ∧ Moves w [.forget (· = entity)] (s.destroyEntity entity).view := by
  unfold destroyEntity
  cases he : s.emitter? entity with
  | none =>
    refine ⟨s.view, .refl _, ?_⟩
    have hm : Moves s.view _ (s.view.without (· = entity)) := .single (.forget fun e hd g hg => ?_)
    · rwa [(reads_ofEntity he).without_eq] at hm
    · rw [of_decide_eq_true hd, ← (reads_ofEntity he).handles] at hg
      cases hg
  | some em =>
    obtain ⟨hp, hs⟩ := Plainly.quiet h (reads_emitter he)
    have hsay : Plainly (s.view.put (.entity entity) (quiet em s.rig).1 (quiet em s.rig).2) _ :=
      .single (.calm (.say _ .debug ("Audio: removed emitter for " ++ entity.text ++ " ("
        ++ toString (em.stopAll .immediate s.rig).1 ++ " instance(s) stopped)") (by decide))) rfl
    refine ⟨_, hp.trans hsay, ?_⟩
    exact (view_erase s _ entity).symm ▸ Moves.forget fun g hg x hx => hs g hg x hx

/-! ### Music -/

theorem stopMusicEach_plainly (mode : StopMode) (hs : List Handle) {v : View E L} (h : Orderly v)
    (hv : v.Reads .music em) :
    Plainly v (v.put .music (stopMusicEach mode hs em v.rig).2.1 (stopMusicEach mode hs em v.rig).2.2) := by
  induction hs generalizing v em with
  | nil => exact .calm hv (.refl _)
  | cons g rest ih =>
    have hg := Plainly.stopHandle h hv g mode
    have hrest := ih (h.plainly hg) View.reads_put
    rw [View.put_put] at hrest
    exact hg.trans hrest

theorem stopMusic_plainly (h : Orderly s.view) (mode : StopMode) : Plainly s.view (s.stopMusic mode).2.view :=
  (stopMusicEach_plainly mode s.music.handles h (reads_music s)).cast (view_withMusic s _ _)

theorem playMusic_moves (h : Orderly s.view) (file : Path) : ∃ w, Plainly s.view w ∧
    Moves w ((s.playMusic file).1.map (Deed.post .music)).toList (s.playMusic file).2.view := by
  have hstop := stopMusic_plainly h .allowFadeOut
  unfold playMusic
  generalize s.stopMusic .allowFadeOut = c at hstop ⊢
  obtain ⟨n, s'⟩ := c
  have hv : s'.view.Reads .music (s'.music.setPosition s'.listener.position) := ⟨rfl, rfl⟩
  obtain ⟨w, hw, hm⟩ := Moves.play hv ⟨s'.config.template true, some file, true⟩
  refine ⟨w, hstop.trans hw, ?_⟩
  rw [← view_withMusic] at hm
  exact hm

/-! ### Frames -/

theorem tickEntity_plainly (h : Orderly s.view) (transform : EntityId → Option Vec3) (entity : EntityId) :
    Plainly s.view (s.tickEntity transform entity).2.view := by
  unfold tickEntity
  cases he : s.emitter? entity with
  | none => exact .refl _
  | some em => exact (Plainly.tick h (reads_emitter he) _).cast (view_withEmitter _ _ _)

theorem tickEach_plainly (transform : EntityId → Option Vec3) (order : List EntityId) (h : Orderly s.view) :
    Plainly s.view (tickEach transform order s).2.view := by
  induction order generalizing s with
  | nil => exact .refl _
  | cons e rest ih =>
    have he := tickEntity_plainly h transform e
    exact he.trans (ih (h.plainly he))

theorem tickIn_plainly (h : Orderly s.view) (order : List EntityId) (transform : EntityId → Option Vec3) :
    Plainly s.view (s.tickIn order transform).2.view := by
  have hup : Plainly s.view { s with rig := s.rig.update }.view := .single .update rfl
  have hall := hup.trans (tickEach_plainly transform order (h.plainly hup))
  unfold tickIn
  dsimp only
  generalize tickEach transform order { s with rig := s.rig.update } = c at hall ⊢
  obtain ⟨n, s'⟩ := c
  have hm := Plainly.tick (h.plainly hall) (reads_music s') s'.listener.position
  exact hall.trans (hm.cast (view_withMusic s' _ _))

/-! ### Shutting down -/

theorem quietEntity_plainly (h : Orderly s.view) (entity : EntityId) : Plainly s.view (s.quietEntity entity).view ∧
    Silent (s.quietEntity entity).view.rig ((s.quietEntity entity).view.handles (.entity entity)) := by
  unfold quietEntity
  cases he : s.emitter? entity with
  | none =>
    refine ⟨.refl _, fun g hg => ?_⟩
    rw [← (reads_ofEntity he).handles] at hg
    cases hg
  | some em =>
    obtain ⟨hp, hs⟩ := Plainly.quiet h (reads_emitter he)
    have hview := view_withEmitter { s with rig := (quiet em s.rig).2 } (quiet em s.rig).1 entity
    refine ⟨hp.cast hview, ?_⟩
    dsimp only
    rw [hview, View.handles_put_self, View.rig_put]
    exact hs

/-- Each entity that was visited is silent from then on. -/
theorem quietEach (h : Orderly s.view) (order : List EntityId) : let s' := order.foldl quietEntity s
    Plainly s.view s'.view ∧ (∀ e ∈ order, Silent s'.view.rig (s'.view.handles (.entity e))) ∧
      ∀ e, e ∉ order → s'.view.handles (.entity e) = s.view.handles (.entity e) := by
  intro s'
  induction order generalizing s with
  | nil => exact ⟨.refl _, fun _ he => absurd he List.not_mem_nil, fun _ _ => rfl⟩
  | cons e rest ih =>
    obtain ⟨hp, hs⟩ := quietEntity_plainly h e
    obtain ⟨hp', hs', hk⟩ := ih (h.plainly hp)
    refine ⟨hp.trans hp', fun e' he' => ?_, fun e' he' => ?_⟩
    · by_cases hrest : e' ∈ rest
      · exact hs' e' hrest
      · have heq : e' = e := (List.mem_cons.mp he').resolve_right hrest
        subst heq
        rw [show s'.view.handles (.entity e') = _ from hk e' hrest]
        exact (Plainly.fades (h.plainly hp) hp').silent hs
    · rw [List.mem_cons, not_or] at he'
      exact (hk e' he'.2).trans (handlesOf_quietEntity he'.1)

/-- The view that is left when everybody was quieted, the music last. -/
def hushed (s : System E L) (order : List EntityId) : View E L :=
  let s' := order.foldl quietEntity s
  s'.view.put .music (quiet s'.music s'.rig).1 (quiet s'.music s'.rig).2

theorem hushed_plainly (h : Orderly s.view) {order : List EntityId}
    (hall : ∀ e, s.view.handles (.entity e) ≠ [] → e ∈ order) :
    Plainly s.view (s.hushed order) ∧ ∀ o, Silent (s.hushed order).rig ((s.hushed order).handles o) := by
  obtain ⟨hp, hs, hk⟩ := quietEach h order
  unfold hushed
  dsimp only
  generalize order.foldl quietEntity s = s' at hp hs hk ⊢
  obtain ⟨hp', hs'⟩ := Plainly.quiet (h.plainly hp) (reads_music s')
  refine ⟨hp.trans hp', ?_⟩
  rintro (e | _)
  · rw [View.handles_put_of_ne (by simp)]
    refine (Plainly.fades (h.plainly hp) hp').silent ?_
    by_cases he : e ∈ order
    · exact hs e he
    · rw [hk e he, Classical.byContradiction fun hne => he (hall e hne)]
      exact fun g hg => absurd hg List.not_mem_nil
  · rw [View.handles_put_self]
    exact hs'

theorem shutdownIn_moves (h : Orderly s.view) {order : List EntityId}
    (hall : ∀ e, s.view.handles (.entity e) ≠ [] → e ∈ order) :
    ∃ w, Plainly s.view w ∧ Moves w [.forget fun _ => true] (s.shutdownIn order).view := by
  obtain ⟨hp, hs⟩ := hushed_plainly h hall
  have hup : Plainly (s.hushed order) ((s.hushed order).withRig (s.hushed order).rig.update) := .single .update rfl
  have hsilent := fun o => (Plainly.fades (h.plainly hp) hup).silent (hs o)
  have hsay : Plainly ((s.hushed order).withRig (s.hushed order).rig.update) _ :=
    .single (.calm (.say _ .debug ("Audio: shut down ("
      ++ toString (s.hushed order).rig.update.boundCount ++ " binding(s) still pending)") (by decide))) rfl
  refine ⟨_, (hp.trans hup).trans hsay, ?_⟩
  have hview := view_forget (order.foldl quietEntity s)
    (quiet (order.foldl quietEntity s).music (order.foldl quietEntity s).rig).1
    ((s.hushed order).rig.update.say .debug ("Audio: shut down ("
      ++ toString (s.hushed order).rig.update.boundCount ++ " binding(s) still pending)"))
  exact (show _ = _ from hview) ▸ Moves.single (.forget fun e _ g hg x hx => hsilent (.entity e) g hg x hx)

end

end System

namespace Request

theorem mem_order {E L : Type} {s : System E L} (visit : Visit) (e : EntityId)
    (he : s.view.handles (.entity e) ≠ []) : e ∈ visit.order s.emitters.keys := by
  rw [(visit.perm _).mem_iff]
  refine Classical.byContradiction fun hout => he ?_
  have hnone : s.emitter? e = none := Table.get?_eq_none_iff.mpr hout
  exact (System.reads_ofEntity hnone).handles.symm

variable {E L X S : Type} [Loader L] [LawfulLoader L] [Engine E L] [Staged E X S] [Playable X S]
  [LawfulEngine E L X S] {s : System E L}

/-- A request is a run of plain moves, followed by the post or the parameter that was asked for. -/
theorem moves (h : Orderly s.view) (q : Request) :
    ∃ w, Plainly s.view w ∧ Moves w (q.outcome (q.perform s).1) (q.perform s).2.view := by
  have plain : ∀ {s' : System E L}, Plainly s.view s'.view → ∃ w, Plainly s.view w ∧ Moves w [] s'.view :=
    fun hp => ⟨_, hp, .nil⟩
  cases q with
  | resolve entity => exact plain (s.resolve_plainly entity)
  | post entity event keep => exact s.address_play entity fun em r => ⟨⟨event, none, keep⟩, rfl⟩
  | postFile entity template file keep => exact s.address_play entity fun em r => ⟨⟨template, some file, keep⟩, rfl⟩
  | postCustom entity file looping keep =>
    exact s.address_play entity fun em r => ⟨⟨s.config.template looping, some file, keep⟩, rfl⟩
  | postVoice entity key =>
    exact s.address_play entity fun em r => ⟨⟨em.voice.event s.config.voiceBank key, none, false⟩, rfl⟩
  | setVoice entity voice => exact plain (s.address_still entity (·.setVoice voice) (fun _ => rfl) fun _ => rfl)
  | setPosition entity position =>
    exact plain (s.address_still entity (·.setPosition position) (fun _ => rfl) fun _ => rfl)
  | setFloat entity name value =>
    obtain ⟨v, em, hp, hv, -, he⟩ := s.address_view entity fun em r => ((), em.setFloat name value r)
    exact ⟨v, hp, he ▸ Moves.setFloat (h.plainly hp) hv name value⟩
  | setLabel entity name label =>
    obtain ⟨v, em, hp, hv, -, he⟩ := s.address_view entity fun em r => ((), em.setLabel name label r)
    exact ⟨v, hp, he ▸ Moves.setLabel (h.plainly hp) hv name label⟩
  | stop entity event mode => exact plain (s.stop_plainly entity event mode)
  | stopHandle entity handle mode => exact plain (System.stopHandle_plainly h entity handle mode)
  | stopAll entity mode => exact plain (System.stopAll_plainly h entity mode)
  | destroyEntity entity => exact System.destroyEntity_moves h entity
  | playMusic file => exact System.playMusic_moves h file
  | stopMusic mode => exact plain (System.stopMusic_plainly h mode)
  | setListener attributes => exact plain (s.setListener_plainly attributes)
  | setListenerPosition position => exact plain (s.setListener_plainly _)
  | tick visit transform => exact plain (System.tickIn_plainly h _ transform)
  | shutdown visit => exact System.shutdownIn_moves h (mem_order visit)

theorem orderly (h : Orderly s.view) (q : Request) : Orderly (q.perform s).2.view := by
  obtain ⟨w, hp, hm⟩ := q.moves h
  exact (h.plainly hp).moves hm

theorem keeps {P : View E L → Prop} (hmove : ∀ {v w d}, Orderly v → Move v d w → P v → P w)
    (ho : Orderly s.view) (h : P s.view) (q : Request) : P (q.perform s).2.view := by
  have both : ∀ {v d w}, Move v d w → Orderly v ∧ P v → Orderly w ∧ P w :=
    fun hm h => ⟨h.1.move hm, hmove h.1 hm h.2⟩
  obtain ⟨w, ⟨ds, -, hp⟩, hm⟩ := q.moves ho
  exact (hm.keeps both (hp.keeps both ⟨ho, h⟩)).2

/-- A request that posts does so in its last move, and answers the handle; the others do not post. -/
theorem posting (h : Orderly s.view) (q : Request) : ∃ w ds, Moves s.view ds w ∧ (∀ d ∈ ds, ∀ o g, d ≠ .post o g) ∧
    ((q.perform s).1 = none ∧ w = (q.perform s).2.view ∨
      ∃ o g, (q.perform s).1 = some g ∧ Move w (.post o g) (q.perform s).2.view) := by
  obtain ⟨w, ⟨ds, hplain, hds⟩, hm⟩ := q.moves h
  have hnopost : ∀ d ∈ ds, ∀ o g, d ≠ .post o g := by
    rintro _ hd o g rfl
    cases hplain _ hd
  cases ha : (q.perform s).1 with
  | none =>
    rw [ha] at hm
    refine ⟨_, _, hds.trans hm, fun d hd o g he => ?_, .inl ⟨rfl, rfl⟩⟩
    rcases List.mem_append.mp hd with hd | hd
    · exact hnopost d hd o g he
    · cases (post_mem_outcome (he ▸ hd)).2
  | some g =>
    obtain ⟨o, hpost⟩ := outcome_of_answer ha
    rw [ha, hpost] at hm
    obtain - | ⟨hm, ⟨⟩⟩ := hm
    exact ⟨w, ds, hds, hnopost, .inr ⟨o, g, rfl, hm⟩⟩

end Request

end Soundstage
