import Soundstage.Proofs.System.Runs

/-!
# Which handles are tracked

Of a handle only that its instance was given up is ever noted; the rest is its origin. What a turn makes
of the origins that an owner tracks is the same for all turns (`Turn.origins_take`): it takes away those
that it does not spare, and adds the one of the handle that was posted. Only ticks take single
handles away, those of instances that are gone; all of them are lost with the emitter, when its
entity is destroyed or the system shut down.
-/

namespace Soundstage

open Playable Staged Function

namespace Handle

def origin (h : Handle) : Handle := { h with released := false }

theorem map_origin_filter (hs : List Handle) (p : InstanceId → Bool) :
    (hs.filter fun h => p h.instanceId).map origin = (hs.map origin).filter fun h => p h.instanceId := by
  rw [List.filter_map]
  rfl

end Handle

/-! ### Emitters -/

namespace Emitter

variable {E L : Type} [Loader L] [Engine E L]

theorem origins_markReleased (i : InstanceId) (hs : List Handle) :
    (markReleased i hs).map Handle.origin = hs.map Handle.origin := by
  induction hs with
  | nil => rfl
  | cons h rest ih =>
    unfold markReleased
    split
    · rfl
    · rw [List.map_cons, List.map_cons, ih]

theorem origins_stopHandle (em : Emitter) (handle : Handle) (mode : StopMode) (r : Rig E L) :
    (em.stopHandle handle mode r).2.1.handles.map Handle.origin = em.handles.map Handle.origin := by
  unfold stopHandle
  repeat' split
  all_goals first
    | rfl
    | exact origins_markReleased _ _

theorem origins_releaseEach (hs : List Handle) (r : Rig E L) :
    (releaseEach hs r).2.1.map Handle.origin = hs.map Handle.origin := by
  induction hs generalizing r with
  | nil => rfl
  | cons h rest ih =>
    unfold releaseEach
    dsimp only
    split
    · rw [List.map_cons, List.map_cons, ih]
    · split
      · rw [List.map_cons, List.map_cons, ih]
        rfl
      · rw [List.map_cons, List.map_cons, ih]

theorem origins_quiet (em : Emitter) (r : Rig E L) :
    (System.quiet em r).1.handles.map Handle.origin = em.handles.map Handle.origin :=
  origins_releaseEach em.handles _

theorem handles_play (em : Emitter) (c : Cue) (r : Rig E L) :
    (em.play c r).2.1.handles = em.handles ++ (em.play c r).1.toList := by
  obtain ⟨event, file, keep⟩ := c
  cases file with
  | none =>
    dsimp only [play]
    unfold post
    split
    · exact (List.append_nil _).symm
    · rfl
  | some file =>
    dsimp only [play]
    unfold postFile
    split
    · exact (List.append_nil _).symm
    · rfl

end Emitter

/-! ### Views -/

namespace View

variable {E L : Type} {v : View E L} {o : Owner} {em em' : Emitter} {r : Rig E L}

/-- The origins of what an owner tracks. -/
def origins (v : View E L) (o : Owner) : List Handle := (v.handles o).map Handle.origin

theorem ids_of_origins {w : View E L} (h : v.origins = w.origins) : v.ids = w.ids := by
  have hids : ∀ (u : View E L) (o : Owner), u.ids o = (u.origins o).map Handle.instanceId := by
    intro u o
    rw [origins, List.map_map]
    rfl
  funext o
  rw [hids, hids, h]

theorem origins_put (p : Owner) :
    (v.put o em r).origins p = if p = o then em.handles.map Handle.origin else v.origins p := by
  unfold origins
  split
  · subst p
    rw [handles_put_self]
  · rw [handles_put_of_ne ‹_›]

theorem origins_put_same (hv : v.Reads o em) (h : em'.handles.map Handle.origin = em.handles.map Handle.origin) :
    (v.put o em' r).origins = v.origins := by
  funext p
  rw [origins_put, h, hv.handles]
  split
  · subst p
    rfl
  · rfl

end View

/-! ### Requests to a system -/

namespace System

section

variable {E L : Type} {s : System E L} {entity : EntityId}

theorem origins_resolve (s : System E L) (entity : EntityId) : (s.resolve entity).2.view.origins = s.view.origins := by
  unfold resolve
  cases he : s.emitter? entity with
  | some em => rfl
  | none =>
    have hv := reads_ofEntity he
    rw [view_withEmitter]
    exact View.origins_put_same ⟨hv.handles, hv.params⟩ rfl

theorem origins_address_same (s : System E L) (entity : EntityId) (act : Emitter → Rig E L → Unit × Emitter × Rig E L)
    (hact : ∀ em r, (act em r).2.1.handles.map Handle.origin = em.handles.map Handle.origin) :
    (s.address entity act).2.view.origins = s.view.origins := by
  rw [view_address, View.origins_put_same (s.reads_resolve entity) (hact _ _), origins_resolve]

end

variable {E L : Type} [Loader L] [Engine E L] {s : System E L} {entity : EntityId}

/-- What the owner `p` tracks once `o` may have posted a handle. -/
theorem origins_put_play {v : View E L} {o : Owner} {em : Emitter} (hv : v.Reads o em) (c : Cue) (p : Owner)
    {r : Rig E L} : (v.put o (em.play c r).2.1 (em.play c r).2.2).origins p =
      v.origins p ++ (if some o = some p then (em.play c r).1 else none).toList.map Handle.origin := by
  rw [View.origins_put, em.handles_play, List.map_append, hv.handles]
  by_cases hp : p = o
  · subst p
    rw [if_pos rfl, if_pos rfl]
    rfl
  · rw [if_neg hp, if_neg fun e => hp (Option.some.inj e).symm]
    exact (List.append_nil _).symm

theorem origins_address_play {act : Emitter → Rig E L → Option Handle × Emitter × Rig E L}
    (hact : ∀ em r, ∃ c, act em r = em.play c r) (o : Owner) : (s.address entity act).2.view.origins o =
      s.view.origins o ++
        (if some (.entity entity) = some o then (s.address entity act).1 else none).toList.map Handle.origin := by
  obtain ⟨c, hc⟩ := hact (s.resolve entity).1 (s.resolve entity).2.rig
  have hanswer : (s.address entity act).1 = (act (s.resolve entity).1 (s.resolve entity).2.rig).1 := rfl
  rw [view_address, hanswer, hc, origins_put_play (s.reads_resolve entity), origins_resolve]

theorem origins_stopHandle (s : System E L) (entity : EntityId) (handle : Handle) (mode : StopMode) :
    (s.stopHandle entity handle mode).2.view.origins = s.view.origins := by
  unfold stopHandle
  cases he : s.emitter? entity with
  | none => rfl
  | some em =>
    have hv := reads_emitter he
    dsimp only
    rw [view_withEmitter]
    exact View.origins_put_same ⟨hv.handles, hv.params⟩ (em.origins_stopHandle handle mode s.rig)

theorem origins_stopMusicEach (mode : StopMode) (hs : List Handle) (em : Emitter) (r : Rig E L) :
    (stopMusicEach mode hs em r).2.1.handles.map Handle.origin = em.handles.map Handle.origin := by
  induction hs generalizing em r with
  | nil => rfl
  | cons g rest ih => exact (ih ..).trans (em.origins_stopHandle g mode r)

theorem origins_stopMusic (s : System E L) (mode : StopMode) :
    (s.stopMusic mode).2.view.origins = s.view.origins := by
  have hput : (s.stopMusic mode).2.view = s.view.put .music _ _ := view_withMusic s _ _
  rw [hput, View.origins_put_same s.reads_music (origins_stopMusicEach mode s.music.handles s.music s.rig)]

theorem origins_playMusic (s : System E L) (file : Path) (o : Owner) : (s.playMusic file).2.view.origins o =
    s.view.origins o ++ (if some .music = some o then (s.playMusic file).1 else none).toList.map Handle.origin := by
  have hstop := s.origins_stopMusic .allowFadeOut
  unfold playMusic
  generalize s.stopMusic .allowFadeOut = c at hstop ⊢
  obtain ⟨n, s'⟩ := c
  have hv : s'.view.Reads .music (s'.music.setPosition s'.listener.position) := ⟨rfl, rfl⟩
  rw [← hstop]
  exact (congrFun (congrArg View.origins (view_withMusic s' _ _)) o).trans
    (origins_put_play hv ⟨s'.config.template true, some file, true⟩ o)

theorem origins_destroyEntity (s : System E L) (entity : EntityId) (o : Owner) :
    (s.destroyEntity entity).view.origins o = if o = .entity entity then [] else s.view.origins o := by
  unfold destroyEntity
  cases he : s.emitter? entity with
  | none =>
    dsimp only
    split
    · subst o
      exact congrArg (List.map Handle.origin) (reads_ofEntity he).handles.symm
    · rfl
  | some em =>
    have hview := view_erase s (em.releaseKept (em.stopAll .immediate s.rig).2).2.2 entity
    refine (congrFun (congrArg View.origins hview) o).trans ?_
    rcases o with e | _
    · by_cases h : e = entity <;> simp [View.origins, View.without, View.withRig, h]
    · rfl

theorem music_quietEach (s : System E L) (order : List EntityId) : (order.foldl quietEntity s).music = s.music := by
  induction order generalizing s with
  | nil => rfl
  | cons e rest ih =>
    refine (ih _).trans ?_
    unfold quietEntity
    split <;> rfl

theorem origins_shutdownIn (s : System E L) (order : List EntityId) (o : Owner) :
    (s.shutdownIn order).view.origins o = if o = .music then s.view.origins o else [] := by
  have hmusic := (order.foldl quietEntity s).music.origins_quiet (order.foldl quietEntity s).rig
  rw [s.music_quietEach] at hmusic
  rcases o with e | _
  · rfl
  · exact (congrArg (fun em => (quiet em _).1.handles.map Handle.origin) (s.music_quietEach order)).trans hmusic

/-! ### Ticks -/

section

variable {X S : Type} [LawfulLoader L] [Staged E X S] [Playable X S] [LawfulEngine E L X S]

theorem tick_reaps {v : View E L} {o : Owner} {em : Emitter} (h : Orderly v) (hv : v.Reads o em) (position : Vec3) :
    (∀ i, (em.tick position v.rig).2.2.isValid i = v.rig.isValid i) ∧
      (em.tick position v.rig).2.1.handles = (v.handles o).filter fun g => v.rig.isValid g.instanceId := by
  have hw := em.tick_wrote position (hv.ids ▸ h.nodup o) v.rig
  refine ⟨hw.isValid, ?_⟩
  rw [Emitter.tick_emitter, hv.handles]

theorem tickEntity_reaps (h : Orderly s.view) (transform : EntityId → Option Vec3) (entity : EntityId) :
    let s' := (s.tickEntity transform entity).2
    (∀ i, s'.rig.isValid i = s.rig.isValid i) ∧ ∀ o, s'.view.handles o =
      if o = .entity entity then (s.view.handles o).filter fun g => s.rig.isValid g.instanceId
      else s.view.handles o := by
  unfold tickEntity
  cases he : s.emitter? entity with
  | none =>
    refine ⟨fun _ => rfl, fun o => ?_⟩
    dsimp only
    split
    · subst o
      have hnil : s.view.handles (.entity entity) = [] := (reads_ofEntity he).handles.symm
      rw [hnil]
      rfl
    · rfl
  | some em =>
    obtain ⟨hvalid, hreaped⟩ := tick_reaps h (reads_emitter he) ((transform entity).getD em.position)
    refine ⟨hvalid, fun o => ?_⟩
    dsimp only
    rw [view_withEmitter]
    split
    · subst o
      rw [View.handles_put_self]
      exact hreaped
    · exact View.handles_put_of_ne ‹_›

theorem tickEach_reaps (h : Orderly s.view) (transform : EntityId → Option Vec3) (order : List EntityId) :
    let s' := (tickEach transform order s).2
    (∀ i, s'.rig.isValid i = s.rig.isValid i) ∧ s'.music = s.music ∧ ∀ e, s'.view.handles (.entity e) =
      if e ∈ order then (s.view.handles (.entity e)).filter fun g => s.rig.isValid g.instanceId
      else s.view.handles (.entity e) := by
  induction order generalizing s with
  | nil => exact ⟨fun _ => rfl, rfl, fun _ => rfl⟩
  | cons entity rest ih =>
    obtain ⟨hvalid, hreaped⟩ := tickEntity_reaps h transform entity
    obtain ⟨hvalid', hmusic', hreaped'⟩ := ih (h.plainly (tickEntity_plainly h transform entity))
    have hmusic : (s.tickEntity transform entity).2.music = s.music := by
      unfold tickEntity
      split <;> rfl
    refine ⟨fun i => (hvalid' i).trans (hvalid i), hmusic'.trans hmusic, fun e => (hreaped' e).trans ?_⟩
    have hsame : (fun g : Handle => (s.tickEntity transform entity).2.rig.isValid g.instanceId) =
        fun g => s.rig.isValid g.instanceId := funext fun g => hvalid g.instanceId
    rw [hreaped, hsame]
    by_cases he : e = entity
    · subst e
      simp
    · simp [he]

/-- After a tick, the owners have lost the handles of the instances that are gone, and no others. -/
theorem tickIn_reaps (h : Orderly s.view) (transform : EntityId → Option Vec3) {order : List EntityId}
    (hall : ∀ e, s.view.handles (.entity e) ≠ [] → e ∈ order) (o : Owner) :
    let s' := (s.tickIn order transform).2
    s'.view.handles o = (s.view.handles o).filter fun g => s'.rig.isValid g.instanceId := by
  have hup : Plainly s.view { s with rig := s.rig.update }.view := .single .update rfl
  obtain ⟨hvalid, hmusic, hreaped⟩ := tickEach_reaps (h.plainly hup) transform order
  have hp := tickEach_plainly transform order (h.plainly hup)
  unfold tickIn
  dsimp only
  generalize tickEach transform order { s with rig := s.rig.update } = c at hvalid hmusic hreaped hp ⊢
  obtain ⟨n, s'⟩ := c
  dsimp only at hvalid hmusic hreaped hp ⊢
  obtain ⟨hvalid', hreaped'⟩ := tick_reaps ((h.plainly hup).plainly hp) (reads_music s') s'.listener.position
  have hsame : (fun g : Handle => (s'.music.tick s'.listener.position s'.rig).2.2.isValid g.instanceId) =
      fun g => s.rig.update.isValid g.instanceId :=
    funext fun g => (hvalid' g.instanceId).trans (hvalid g.instanceId)
  rcases o with e | _
  · have hkept : (s'.view.put .music (s'.music.tick s'.listener.position s'.rig).2.1
        (s'.music.tick s'.listener.position s'.rig).2.2).handles (.entity e) = s'.view.handles (.entity e) :=
      View.handles_put_of_ne (by simp)
    rw [view_withMusic, hkept, hreaped, hsame]
    split
    · rfl
    · have hnil : s.view.handles (.entity e) = [] := Classical.byContradiction fun hne => absurd (hall e hne) ‹_›
      exact hnil.trans (congrArg (List.filter _) hnil).symm
  · rw [view_withMusic, View.handles_put_self]
    refine hreaped'.trans ?_
    rw [hsame]
    have hsame' : (fun g : Handle => s'.view.rig.isValid g.instanceId) = fun g => s.rig.update.isValid g.instanceId :=
      funext fun g => hvalid g.instanceId
    rw [hsame']
    exact congrArg (fun em : Emitter => em.handles.filter fun g => s.rig.update.isValid g.instanceId) hmusic

end

end System

/-! ### Turns -/

namespace Request

variable {E L : Type} [Loader L] [Engine E L]

/-- Whether a handle of `i` is left to `o`, where `r` is the rig that the request leaves behind. -/
def spares (q : Request) (o : Owner) (i : InstanceId) (r : Rig E L) : Bool :=
  match q with
  | tick .. => r.isValid i
  | destroyEntity entity => o ≠ .entity entity
  | shutdown _ => o = .music
  | _ => true

/-- The handle that `o` is given. -/
def posted (q : Request) (o : Owner) (s : System E L) : Option Handle :=
  if q.poster? = some o then (q.perform s).1 else none

theorem origins_perform {X S : Type} [LawfulLoader L] [Staged E X S] [Playable X S] [LawfulEngine E L X S]
    {s : System E L} (h : Orderly s.view) (q : Request) (o : Owner) : (q.perform s).2.view.origins o =
      ((s.view.origins o).filter fun g => q.spares o g.instanceId (q.perform s).2.rig) ++
        (q.posted o s).toList.map Handle.origin := by
  have post : ∀ {hs more : List Handle}, hs = s.view.origins o ++ more →
      hs = ((s.view.origins o).filter fun _ => true) ++ more := by
    intro hs more e
    rw [e, List.filter_true]
  have same : ∀ {s' : System E L}, s'.view.origins = s.view.origins →
      s'.view.origins o = ((s.view.origins o).filter fun _ => true) ++ [] := by
    intro s' e
    rw [e, List.filter_true, List.append_nil]
  have lose : ∀ {hs : List Handle} {p : Handle → Bool}, hs = (s.view.origins o).filter p →
      hs = (s.view.origins o).filter p ++ [] := fun e => e.trans (List.append_nil _).symm
  cases q with
  | post entity event keep =>
    exact post (System.origins_address_play (fun em r => ⟨⟨event, none, keep⟩, rfl⟩) o)
  | postFile entity template file keep =>
    exact post (System.origins_address_play (fun em r => ⟨⟨template, some file, keep⟩, rfl⟩) o)
  | postCustom entity file looping keep =>
    exact post (System.origins_address_play (fun em r => ⟨⟨s.config.template looping, some file, keep⟩, rfl⟩) o)
  | postVoice entity key =>
    exact post (System.origins_address_play (fun em r => ⟨⟨em.voice.event s.config.voiceBank key, none, false⟩, rfl⟩) o)
  | playMusic file => exact post (s.origins_playMusic file o)
  | resolve entity => exact same (s.origins_resolve entity)
  | setVoice entity voice =>
    exact same (s.origins_address_same entity (fun em r => ((), em.setVoice voice, r)) fun _ _ => rfl)
  | setPosition entity position =>
    exact same (s.origins_address_same entity (fun em r => ((), em.setPosition position, r)) fun _ _ => rfl)
  | setFloat entity name value =>
    exact same (s.origins_address_same entity (fun em r => ((), em.setFloat name value r)) fun _ _ => rfl)
  | setLabel entity name label =>
    exact same (s.origins_address_same entity (fun em r => ((), em.setLabel name label r)) fun _ _ => rfl)
  | stop entity event mode =>
    refine same ?_
    change (s.stop entity event mode).2.view.origins = _
    unfold System.stop
    split <;> rfl
  | stopAll entity mode =>
    refine same ?_
    change (s.stopAll entity mode).2.view.origins = _
    unfold System.stopAll
    split <;> rfl
  | stopHandle entity handle mode => exact same (s.origins_stopHandle entity handle mode)
  | stopMusic mode => exact same (s.origins_stopMusic mode)
  | setListener attributes => exact same rfl
  | setListenerPosition position => exact same rfl
  | destroyEntity entity =>
    refine lose ((s.origins_destroyEntity entity o).trans ?_)
    by_cases ho : o = .entity entity <;> simp [spares, ho]
  | shutdown visit =>
    refine lose ((s.origins_shutdownIn _ o).trans ?_)
    by_cases ho : o = .music <;> simp [spares, ho]
  | tick visit transform =>
    have hreaped := System.tickIn_reaps h transform (mem_order visit) o
    exact lose ((congrArg (List.map Handle.origin) hreaped).trans (Handle.map_origin_filter _ _))

end Request

namespace Turn

variable {E L V : Type} [Loader L] [Engine E L]

/-- Whether a handle of `i` is left to `o`, where `r` is the rig that the turn leaves behind. -/
def spares (t : Turn V) (o : Owner) (i : InstanceId) (r : Rig E L) : Bool :=
  match t with
  | .request q => q.spares o i r
  | .event _ => true

/-- The handle that `o` is given. -/
def posted (t : Turn V) (o : Owner) (s : System E L) : Option Handle :=
  match t with
  | .request q => q.posted o s
  | .event _ => none

theorem origins_take {X S : Type} [LawfulLoader L] [Staged E X S] [Playable X S] [LawfulEngine E L X S]
    {happen : V → Rig E L → Rig E L} {s : System E L} (h : Orderly s.view) (t : Turn V) (o : Owner) :
    (t.take happen s).view.origins o =
      ((s.view.origins o).filter fun g => t.spares o g.instanceId (t.take happen s).rig) ++
        (t.posted o s).toList.map Handle.origin := by
  cases t with
  | request q => exact q.origins_perform h o
  | event v =>
    have hsame : (s.view.origins o).filter (fun _ => true) ++ [] = s.view.origins o := by
      rw [List.filter_true, List.append_nil]
    exact hsame.symm

end Turn

end Soundstage
