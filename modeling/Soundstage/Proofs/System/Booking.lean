import Soundstage.Proofs.System.Accounts

/-!
# Requests with a record

A system with a record of orders does what the system does without one, and its orders account for what is given
up on the way. `Booked` says both of a way, with what it answers as a function of the record; the emitter's
operations are booked one by one, and requests are put together from them (`Request.booked`).
-/

namespace Soundstage

open Playable Staged

/-- The way from `r` to `r'`, when a record is kept: `b` is `out` of the record, which was `es`, with orders behind
it that account for the way. -/
def Booked {E L X S β : Type} [Staged E X S] [Playable X S] (es : List Entry) (r r' : Rig E L) (out : List Entry → β)
    (b : β) : Prop :=
  ∃ more, Accounts more r r' ∧ b = out (es ++ more)

namespace Booked

section

variable {E L X S β γ : Type} [Staged E X S] [Playable X S] {es more : List Entry} {r r' r'' : Rig E L}
  {out : List Entry → β} {b : β}

/-- A way on which no orders are made. -/
theorem silent (ha : Accounts [] r r') (h : b = out es) : Booked es r r' out b := ⟨[], ha, by rw [List.append_nil, h]⟩

theorem map (f : β → γ) (h : Booked es r r' out b) : Booked es r r' (fun es => f (out es)) (f b) := by
  obtain ⟨more, ha, rfl⟩ := h
  exact ⟨more, ha, rfl⟩

theorem after (hb : ∀ {j}, r.instance? j ≠ none → j.val ≤ r.issued) (ha : Accounts more r r')
    (h : Booked (es ++ more) r' r'' out b) : Booked es r r'' out b := by
  obtain ⟨rest, ha', rfl⟩ := h
  exact ⟨more ++ rest, ha.trans hb ha', by rw [List.append_assoc]⟩

theorem still (hb : ∀ {j}, r.instance? j ≠ none → j.val ≤ r.issued) (h : Booked es r r' out b)
    (ha : Accounts [] r' r'') : Booked es r r'' out b := by
  obtain ⟨more, hm, rfl⟩ := h
  exact ⟨more, List.append_nil more ▸ hm.trans hb ha, rfl⟩

end

end Booked

/-- An act on `r` comes to `a`, and to `b` with a record. -/
def Rig.Books {E L X S α : Type} [Staged E X S] [Playable X S] (es : List Entry) (r : Rig E L) (a : α × Rig E L)
    (b : α × Rig (Recorded E) L) : Prop :=
  Booked es r a.2 (fun es => (a.1, a.2.recorded es)) b

/-- An act on `r` that changes its emitter comes to `a`, and to `b` with a record. -/
def Emitter.Books {E L X S α : Type} [Staged E X S] [Playable X S] (es : List Entry) (r : Rig E L)
    (a : α × Emitter × Rig E L) (b : α × Emitter × Rig (Recorded E) L) : Prop :=
  Booked es r a.2.2 (fun es => (a.1, a.2.1, a.2.2.recorded es)) b

namespace Booked

/-! ### What an emitter does -/

variable {E L X S : Type} [Loader L] [LawfulLoader L] [Engine E L] [Staged E X S] [Playable X S]
  [LawfulEngine E L X S] {v : View E L} {o : Owner} {em : Emitter} (es : List Entry)

theorem play (h : Orderly v) (em : Emitter) (c : Cue) :
    Emitter.Books es v.rig (em.play c v.rig) (em.play c (v.rig.recorded es)) :=
  ⟨_, .play h em c, Emitter.play_recorded es em c v.rig⟩

theorem setFloat (h : Orderly v) (hv : v.Reads o em) (name : String) (value : Float32) :
    v.rig.Books es (em.setFloat name value v.rig) (em.setFloat name value (v.rig.recorded es)) :=
  .silent (.setFloat h hv name value) (em.setFloat_recorded v.rig es name value)

theorem setLabel (h : Orderly v) (hv : v.Reads o em) (name label : String) :
    v.rig.Books es (em.setLabel name label v.rig) (em.setLabel name label (v.rig.recorded es)) :=
  .silent (.setLabel h hv name label) (em.setLabel_recorded v.rig es name label)

theorem tick (h : Orderly v) (hv : v.Reads o em) (position : Vec3) :
    Emitter.Books es v.rig (em.tick position v.rig) (em.tick position (v.rig.recorded es)) :=
  .silent (.tick h hv position) (em.tick_recorded v.rig es position)

theorem stop (em : Emitter) (event : String) (mode : StopMode) (r : Rig E L) :
    r.Books es (em.stop event mode r) (em.stop event mode (r.recorded es)) :=
  ⟨_, .stop em event mode _ r, em.stop_recorded es event mode r⟩

theorem stopAll (h : Orderly v) (hv : v.Reads o em) (mode : StopMode) :
    v.rig.Books es (em.stopAll mode v.rig) (em.stopAll mode (v.rig.recorded es)) :=
  ⟨_, .stopAll h hv mode _, Emitter.stopAll_recorded es em mode v.rig⟩

theorem stopHandle (h : Orderly v) (hv : v.Reads o em) (handle : Handle) (mode : StopMode) :
    Emitter.Books es v.rig (em.stopHandle handle mode v.rig) (em.stopHandle handle mode (v.rig.recorded es)) :=
  ⟨_, .stopHandle h hv handle mode, Emitter.stopHandle_recorded es em handle mode v.rig⟩

theorem quiet (h : Orderly v) (hv : v.Reads o em) :
    v.rig.Books es (System.quiet em v.rig) (System.quiet em (v.rig.recorded es)) := by
  have h' := h.plainly (Plainly.stopAll h hv .immediate)
  have hstop := Accounts.stopAll h hv .immediate (Emitter.present em.handles v.rig)
  have hgive := Accounts.releaseKept h' View.reads_put
  unfold System.quiet
  rw [Emitter.stopAll_recorded es]
  refine .after h.issued hstop ⟨_, hgive, ?_⟩
  dsimp only
  rw [Emitter.releaseKept_recorded]
  rfl

theorem stopMusicEach (mode : StopMode) (hs : List Handle) (h : Orderly v) (hv : v.Reads .music em) :
    Emitter.Books es v.rig (System.stopMusicEach mode hs em v.rig)
      (System.stopMusicEach mode hs em (v.rig.recorded es)) := by
  induction hs generalizing v em es with
  | nil => exact .silent (.refl _) rfl
  | cons g rest ih =>
    have hrest := ih (es ++ em.handleOrders g mode v.rig) (h.plainly (Plainly.stopHandle h hv g mode)) View.reads_put
    unfold System.stopMusicEach
    rw [Emitter.stopHandle_recorded es]
    refine .after h.issued (.stopHandle h hv g mode) ?_
    exact hrest.map fun p : Nat × Emitter × Rig (Recorded E) L =>
      (if (em.stopHandle g mode v.rig).1 then p.1 + 1 else p.1, p.2)

end Booked

namespace System

section

variable {E L : Type} (s : System E L) (es : List Entry)

/-- The system with a record of orders. -/
def recorded : System (Recorded E) L where
  rig := s.rig.recorded es
  config := s.config
  emitters := s.emitters
  music := s.music
  listener := s.listener

/-- A step from `s` comes to `a`, and to `b` with a record. -/
def Books {E L X S α : Type} [Staged E X S] [Playable X S] (es : List Entry) (s : System E L) (a : α × System E L)
    (b : α × System (Recorded E) L) : Prop :=
  Booked es s.rig a.2.rig (fun es => (a.1, a.2.recorded es)) b

theorem rig_recorded : (s.recorded es).rig = s.rig.recorded es := rfl

theorem emitter?_recorded (entity : EntityId) : (s.recorded es).emitter? entity = s.emitter? entity := rfl

theorem resolve_recorded (entity : EntityId) :
    (s.recorded es).resolve entity = ((s.resolve entity).1, (s.resolve entity).2.recorded es) := by
  unfold resolve
  rw [emitter?_recorded]
  cases s.emitter? entity <;> rfl

theorem resolve_accounts {E L X S : Type} [Staged E X S] [Playable X S] (s : System E L) (entity : EntityId) :
    Accounts [] s.rig (s.resolve entity).2.rig := by
  unfold resolve
  cases s.emitter? entity with
  | some em => exact .refl _
  | none => exact .calm (.say s.rig .debug _ (by decide))

end

/-! ### What a request does -/

section

variable {E L X S : Type} [Loader L] [LawfulLoader L] [Engine E L] [Staged E X S] [Playable X S]
  [LawfulEngine E L X S] {s : System E L} (es : List Entry)

theorem address_booked {α : Type} {entity : EntityId} (h : Orderly s.view)
    (act : Emitter → Rig E L → α × Emitter × Rig E L)
    (actr : Emitter → Rig (Recorded E) L → α × Emitter × Rig (Recorded E) L)
    (hact : ∀ {v : View E L} {em}, Orderly v → v.Reads (.entity entity) em →
      Emitter.Books es v.rig (act em v.rig) (actr em (v.rig.recorded es))) :
    Books es s (s.address entity act) ((s.recorded es).address entity actr) := by
  have ho := h.plainly (s.resolve_plainly entity)
  have hacted := hact ho (s.reads_resolve entity)
  unfold address
  rw [resolve_recorded]
  refine .after h.issued (s.resolve_accounts entity) ?_
  rw [List.append_nil]
  exact hacted.map fun p => (p.1, { (s.resolve entity).2.recorded es with rig := p.2.2 }.withEmitter p.2.1 entity)

/-- An act that answers nothing. -/
theorem change_booked {entity : EntityId} (h : Orderly s.view) (act : Emitter → Rig E L → Emitter × Rig E L)
    (actr : Emitter → Rig (Recorded E) L → Emitter × Rig (Recorded E) L)
    (hact : ∀ {v : View E L} {em}, Orderly v → v.Reads (.entity entity) em →
      v.rig.Books es (act em v.rig) (actr em (v.rig.recorded es))) :
    Booked es s.rig (s.address entity fun em r => ((), act em r)).2.rig
      (s.address entity fun em r => ((), act em r)).2.recorded
      ((s.recorded es).address entity fun em r => ((), actr em r)).2 :=
  (address_booked es h (fun em r => ((), act em r)) (fun em r => ((), actr em r))
    fun ho hv => (hact ho hv).map ((), ·)).map Prod.snd

theorem play_booked (h : Orderly s.view) (entity : EntityId) (cue : Emitter → Cue) :
    Books es s (s.address entity fun em => em.play (cue em))
      ((s.recorded es).address entity fun em => em.play (cue em)) :=
  address_booked es h _ _ fun {_ em} ho _ => .play es ho em (cue em)

theorem stop_booked (s : System E L) (entity : EntityId) (event : String) (mode : StopMode) :
    Books es s (s.stop entity event mode) ((s.recorded es).stop entity event mode) := by
  unfold stop
  rw [emitter?_recorded]
  cases s.emitter? entity with
  | none => exact .silent (.refl _) rfl
  | some em => exact (Booked.stop es em event mode s.rig).map fun p => (p.1, { s.recorded es with rig := p.2 })

theorem stopHandle_booked (h : Orderly s.view) (entity : EntityId) (handle : Handle) (mode : StopMode) :
    Books es s (s.stopHandle entity handle mode) ((s.recorded es).stopHandle entity handle mode) := by
  unfold stopHandle
  rw [emitter?_recorded]
  cases he : s.emitter? entity with
  | none => exact .silent (.refl _) rfl
  | some em =>
    exact (Booked.stopHandle es h (reads_emitter he) handle mode).map fun p =>
      (p.1, { s.recorded es with rig := p.2.2 }.withEmitter p.2.1 entity)

theorem stopAll_booked (h : Orderly s.view) (entity : EntityId) (mode : StopMode) :
    Books es s (s.stopAll entity mode) ((s.recorded es).stopAll entity mode) := by
  unfold stopAll
  rw [emitter?_recorded]
  cases he : s.emitter? entity with
  | none => exact .silent (.refl _) rfl
  | some em =>
    exact (Booked.stopAll es h (reads_emitter he) mode).map fun p => (p.1, { s.recorded es with rig := p.2 })

theorem destroyEntity_booked (h : Orderly s.view) (entity : EntityId) :
    Booked es s.rig (s.destroyEntity entity).rig (s.destroyEntity entity).recorded
      ((s.recorded es).destroyEntity entity) := by
  unfold destroyEntity
  rw [emitter?_recorded]
  cases he : s.emitter? entity with
  | none => exact .silent (.refl _) rfl
  | some em =>
    have hv := reads_emitter he
    have h' := h.plainly (Plainly.stopAll h hv .immediate)
    have hstop := Accounts.stopAll h hv .immediate (Emitter.present em.handles s.rig)
    have hgive := Accounts.releaseKept h' View.reads_put
    dsimp only
    rw [rig_recorded, Emitter.stopAll_recorded es]
    refine .after h.issued hstop (.still h'.issued ⟨_, hgive, ?_⟩ (.calm (.say _ .debug _ (by decide))))
    dsimp only
    rw [Emitter.releaseKept_recorded]
    rfl

theorem stopMusic_booked (h : Orderly s.view) (mode : StopMode) :
    Books es s (s.stopMusic mode) ((s.recorded es).stopMusic mode) := by
  have hstop := Booked.stopMusicEach es mode s.music.handles h (reads_music s)
  unfold stopMusic
  exact hstop.map fun p => (p.1, { s.recorded es with rig := p.2.2, music := p.2.1 })

theorem playMusic_booked (h : Orderly s.view) (file : Path) :
    Books es s (s.playMusic file) ((s.recorded es).playMusic file) := by
  have h' := h.plainly (stopMusic_plainly h .allowFadeOut)
  obtain ⟨more, ha, he⟩ := s.stopMusic_booked es h .allowFadeOut
  unfold playMusic
  rw [he]
  refine .after h.issued ha ?_
  generalize s.stopMusic .allowFadeOut = c at h' ⊢
  obtain ⟨n, s'⟩ := c
  have hplay := Booked.play (es ++ more) h' (s'.music.setPosition s'.listener.position)
    ⟨s'.config.template true, some file, true⟩
  exact hplay.map fun p => (p.1, { s'.recorded es with rig := p.2.2, music := p.2.1 })

theorem setListener_booked (s : System E L) (attributes : Attributes) :
    Booked es s.rig (s.setListener attributes).rig (s.setListener attributes).recorded
      ((s.recorded es).setListener attributes) := by
  refine .silent (.calm (s.rig.setListener_wrote attributes)) ?_
  unfold setListener
  exact congrArg (fun rig => { s.recorded es with listener := attributes, rig })
    (s.rig.setListener_recorded es attributes)

theorem tickEntity_booked (h : Orderly s.view) (transform : EntityId → Option Vec3) (entity : EntityId) :
    Books es s (s.tickEntity transform entity) ((s.recorded es).tickEntity transform entity) := by
  unfold tickEntity
  rw [emitter?_recorded]
  cases he : s.emitter? entity with
  | none => exact .silent (.refl _) rfl
  | some em =>
    exact (Booked.tick es h (reads_emitter he) _).map fun p =>
      (p.1, { s.recorded es with rig := p.2.2 }.withEmitter p.2.1 entity)

theorem tickEach_booked (transform : EntityId → Option Vec3) (order : List EntityId) (h : Orderly s.view) :
    Books es s (tickEach transform order s) (tickEach transform order (s.recorded es)) := by
  induction order generalizing s es with
  | nil => exact .silent (.refl _) rfl
  | cons e rest ih =>
    obtain ⟨more, ha, he⟩ := tickEntity_booked es h transform e
    have hrest := ih (es ++ more) (h.plainly (tickEntity_plainly h transform e))
    unfold tickEach
    rw [he]
    refine .after h.issued ha ?_
    exact hrest.map fun p : Nat × System (Recorded E) L => ((s.tickEntity transform e).1 + p.1, p.2)

theorem tickIn_booked (h : Orderly s.view) (order : List EntityId) (transform : EntityId → Option Vec3) :
    Books es s (s.tickIn order transform) ((s.recorded es).tickIn order transform) := by
  have hup : Orderly { s with rig := s.rig.update }.view := h.plainly (.single .update rfl)
  obtain ⟨more, ha, he⟩ := tickEach_booked es transform order hup
  have hall := hup.plainly (tickEach_plainly transform order hup)
  change tickEach transform order { s.recorded es with rig := (s.recorded es).rig.update } = _ at he
  unfold tickIn
  dsimp only
  rw [he]
  refine .after h.issued (.update h) ?_
  rw [List.append_nil]
  refine .after hup.issued ha ?_
  generalize tickEach transform order { s with rig := s.rig.update } = c at hall ⊢
  obtain ⟨n, s'⟩ := c
  exact (Booked.tick (es ++ more) hall (reads_music s') s'.listener.position).map fun p =>
    (n + p.1, { s'.recorded es with rig := p.2.2, music := p.2.1 })

theorem quietEntity_booked (h : Orderly s.view) (entity : EntityId) :
    Booked es s.rig (s.quietEntity entity).rig (s.quietEntity entity).recorded
      ((s.recorded es).quietEntity entity) := by
  unfold quietEntity
  rw [emitter?_recorded]
  cases he : s.emitter? entity with
  | none => exact .silent (.refl _) rfl
  | some em =>
    exact (Booked.quiet es h (reads_emitter he)).map
      fun p => { s.recorded es with rig := p.2 }.withEmitter p.1 entity

theorem quietEach_booked (h : Orderly s.view) (order : List EntityId) :
    Booked es s.rig (order.foldl quietEntity s).rig (order.foldl quietEntity s).recorded
      (order.foldl quietEntity (s.recorded es)) := by
  induction order generalizing s es with
  | nil => exact .silent (.refl _) rfl
  | cons e rest ih =>
    obtain ⟨more, ha, he⟩ := quietEntity_booked es h e
    rw [List.foldl_cons, List.foldl_cons, he]
    exact .after h.issued ha (ih (es ++ more) (h.plainly (quietEntity_plainly h e).1))

theorem shutdownIn_booked (h : Orderly s.view) (order : List EntityId) :
    Booked es s.rig (s.shutdownIn order).rig (s.shutdownIn order).recorded ((s.recorded es).shutdownIn order) := by
  have h' := h.plainly (quietEach h order).1
  obtain ⟨more, ha, he⟩ := quietEach_booked es h order
  unfold shutdownIn
  dsimp only
  rw [he]
  refine .after h.issued ha ?_
  generalize order.foldl quietEntity s = s' at h' ⊢
  have hv := reads_music s'
  have hquiet := (Booked.quiet (es ++ more) h' hv).still h'.issued (.update (h'.plainly (Plainly.quiet h' hv).1))
  exact (hquiet.still h'.issued (.calm (.say _ .debug _ (by decide)))).map
    fun p => { s'.recorded es with rig := p.2.update, music := p.1, emitters := .empty }.say .debug
      ("Audio: shut down (" ++ toString p.2.update.boundCount ++ " binding(s) still pending)")

end

end System

namespace Request

variable {E L X S : Type} [Loader L] [LawfulLoader L] [Engine E L] [Staged E X S] [Playable X S]
  [LawfulEngine E L X S] {s : System E L}

/-- With a record kept, a request does what it does, and its orders account for it. -/
theorem booked (h : Orderly s.view) (q : Request) (es : List Entry) :
    s.Books es (q.perform s) (q.perform (s.recorded es)) := by
  -- a request that answers nothing
  have mute : ∀ {s' : System E L} {t : System (Recorded E) L}, Booked es s.rig s'.rig s'.recorded t →
      Booked es s.rig s'.rig (fun es => ((none : Option Handle), s'.recorded es)) (none, t) :=
    fun hb => hb.map (none, ·)
  cases q with
  | resolve entity =>
    exact .silent (s.resolve_accounts entity) (congrArg (fun p => (none, p.2)) (s.resolve_recorded es entity))
  | post entity event keep => exact System.play_booked es h entity fun _ => ⟨event, none, keep⟩
  | postFile entity template file keep => exact System.play_booked es h entity fun _ => ⟨template, some file, keep⟩
  | postCustom entity file looping keep =>
    exact System.play_booked es h entity fun _ => ⟨s.config.template looping, some file, keep⟩
  | postVoice entity key =>
    exact System.play_booked es h entity fun em => ⟨em.voice.event s.config.voiceBank key, none, false⟩
  | setVoice entity voice =>
    exact mute (System.change_booked es h (fun em r => (em.setVoice voice, r)) (fun em r => (em.setVoice voice, r))
      fun _ _ => .silent (.refl _) rfl)
  | setPosition entity position =>
    exact mute (System.change_booked es h (fun em r => (em.setPosition position, r))
      (fun em r => (em.setPosition position, r)) fun _ _ => .silent (.refl _) rfl)
  | setFloat entity name value =>
    exact mute (System.change_booked es h (·.setFloat name value) (·.setFloat name value)
      fun ho hv => .setFloat es ho hv name value)
  | setLabel entity name label =>
    exact mute (System.change_booked es h (·.setLabel name label) (·.setLabel name label)
      fun ho hv => .setLabel es ho hv name label)
  | stop entity event mode => exact mute ((System.stop_booked es s entity event mode).map Prod.snd)
  | stopHandle entity handle mode => exact mute ((System.stopHandle_booked es h entity handle mode).map Prod.snd)
  | stopAll entity mode => exact mute ((System.stopAll_booked es h entity mode).map Prod.snd)
  | destroyEntity entity => exact mute (System.destroyEntity_booked es h entity)
  | playMusic file => exact System.playMusic_booked es h file
  | stopMusic mode => exact mute ((System.stopMusic_booked es h mode).map Prod.snd)
  | setListener attributes => exact mute (System.setListener_booked es s attributes)
  | setListenerPosition position => exact mute (System.setListener_booked es s _)
  | tick visit transform => exact mute ((System.tickIn_booked es h _ transform).map Prod.snd)
  | shutdown visit => exact mute (System.shutdownIn_booked es h _)

end Request

end Soundstage
