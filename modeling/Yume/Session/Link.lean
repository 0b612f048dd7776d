/-
Two joined sessions: every protected record that one side opens is one that the
other side queued, under the same token.
-/
import Yume.Session.Arrivals
import Yume.Session.Shapes
import Yume.Session.Tokens

namespace Yume.Session

open List

variable {guard : Guard} {e e' : Engine} {choice : Choice} {used made : List Call}
  {emitted taken : Option Wire}

open Yume.Lib Engine

/-- A carrier record is bare, or it carries a record of the log under the log's
token. -/
def Wire.Logged (log : List (RecordKeyToken × Record)) : Wire → Prop
  | .sealed token body => body.token = token ∧ (token, body.plaintext) ∈ log
  | .bare _ => True

theorem Wire.Logged.mono {log log' : List (RecordKeyToken × Record)}
    {wire : Wire} (hsub : log ⊆ log') (h : wire.Logged log) :
    wire.Logged log' := by
  cases wire with
  | sealed => exact ⟨h.1, hsub h.2⟩
  | bare => trivial

/-- Every item of the wire queue carries a queued record. -/
def ItemsLogged (e : Engine) : Prop :=
  ∀ item ∈ e.queue.items, item.wire.Logged e.history.queued

section Sender

variable {e e' : Engine} {choice : Choice} {call : Call} {pre used made post : List Call}

theorem Effect.queued_grows (h : Effect e choice call e' made) :
    e.history.queued ⊆ e'.history.queued := by
  have hgrows : ∀ {view : TokenView}, e'.tokenView = view →
      e.history.queued ⊆ view.queued →
      e.history.queued ⊆ e'.history.queued := fun hview hsub =>
    (congrArg TokenView.queued hview ▸ hsub :)
  cases h.tokens with
  | enqueue _ _ _ _ hview => exact hgrows hview (subset_append_left _ _)
  | quiet hview | take _ _ _ _ _ hview | sealing _ _ hview | drop _ hview
  | startRekey _ _ _ _ hview | commitRekey _ _ _ _ hview => exact hgrows hview (List.Subset.refl _)

/-- The wire queue changes by the record that `publish` appends, or is
emptied. -/
theorem Effect.items (h : Effect e choice call e' made) :
    e'.queue.items = e.queue.items ∨ e'.queue.items = [] ∨
      ∃ r o token wire size, call = .publish r o token wire size ∧
        e'.queue.items = e.queue.items ++ [⟨wire, size, r.isControl, r.completion, r.control⟩] ∧
        e'.history.queued = e.history.queued ++
          if r.protect then [(token, r.record)] else [] := by
  have hstop : ∀ reason failed, (e.stop reason failed).queue.items =
      e.queue.items ∨ (e.stop reason failed).queue.items = [] := by
    intro reason failed
    unfold Engine.stop
    split
    · exact .inl rfl
    · exact .inr rfl
  cases h with
  | publishes => exact .inr (.inr ⟨_, _, _, _, _, rfl, rfl, rfl⟩)
  | tokenFails | controlsFailed | stops => exact (hstop _ _).imp_right .inl
  | flushReleases =>
    dsimp only [flushRelease]
    split <;> exact .inl rfl
  | flushAbandons =>
    dsimp only [releaseAll]
    split <;> exact .inl rfl
  | _ => exact .inl rfl

theorem Effect.itemsLogged_kept (heffect : Effect e choice call e' made)
    (htyped : call.Typed) (h : ItemsLogged e) : ItemsLogged e' := by
  have hgrows := heffect.queued_grows
  rcases heffect.items with hitems | hitems | ⟨r, o, token, wire, size, rfl, hitems, hqueued⟩
  · exact fun item hitem => (h item (hitems ▸ hitem)).mono hgrows
  · exact fun item hitem => nomatch hitems ▸ hitem
  intro item hitem
  rw [hitems] at hitem
  rcases mem_append.mp hitem with hitem | hitem
  · exact (h item hitem).mono hgrows
  rw [mem_singleton.mp hitem, hqueued]
  have hsends := htyped.2.2
  unfold Request.Sends at hsends
  split at hsends
  · rename_i hprotect
    obtain ⟨root, rfl⟩ := hsends
    simp [Wire.Logged, hprotect]
  subst hsends
  trivial

theorem Move.itemsLogged_kept (hmove : Move e choice used e' made emitted taken)
    (htyped : ∀ call ∈ used, call.Typed) (h : ItemsLogged e) :
    ItemsLogged e' := by
  cases hmove with
  | run heffect => exact heffect.itemsLogged_kept (htyped _ mem_cons_self) h
  | pump _ _ hitems =>
    exact fun item hitem => h item (hitems ▸ mem_cons_of_mem _ hitem)
  | _ => exact h

end Sender

theorem Endpoint.Run.itemsLogged {config : Config}
    {endpoint : Endpoint} (h : Endpoint.Run config guard endpoint) :
    ItemsLogged endpoint.engine :=
  Run.invariant (P := fun e _ => ItemsLogged e) (K := ShapeInv)
    (fun _ hrun => hrun.shapes) (by simp [ItemsLogged, initial])
    (fun hknown _ hinv hmove _ => hmove.itemsLogged_kept (fun call hcall =>
      hknown.frames call (by simp [hcall])) hinv) h

/-- What is on its way to a receiver, and what it opened, was queued by the
sender. -/
structure Linked (sender : Engine) (channel : List Wire) (receiver : Endpoint) :
    Prop where
  channel : ∀ wire ∈ channel, wire.Logged sender.history.queued
  arriving : ∀ wire ∈ receiver.frames.flatMap Call.arriving, wire.Logged sender.history.queued
  opened : ∀ entry ∈ receiver.engine.history.opened, entry ∈ sender.history.queued

theorem Move.queued_grows (h : Move e choice used e' made emitted taken) :
    e.history.queued ⊆ e'.history.queued := by
  cases h with
  | run heffect => exact heffect.queued_grows
  | _ => exact List.Subset.refl _

/-- Only the send pump hands a record to the carrier. -/
theorem Move.emitted_logged
    (h : Move e choice used e' made emitted taken) (hitems : ItemsLogged e) :
    ∀ wire ∈ emitted.toList, wire.Logged e.history.queued := by
  cases h with
  | pump _ _ hpump =>
    intro wire hwire
    rw [mem_singleton.mp hwire]
    exact hitems _ (hpump ▸ mem_cons_self)
  | _ => exact fun _ hwire => nomatch hwire

theorem Linked.of_sender {channel : List Wire} {receiver : Endpoint} (h : Linked e channel receiver)
    (hmove : Move e choice used e' made emitted taken) (hitems : ItemsLogged e) :
    Linked e' (channel ++ emitted.toList) receiver := by
  have hgrows := hmove.queued_grows
  exact ⟨forall_mem_append.mpr ⟨fun wire hwire => (h.channel wire hwire).mono hgrows,
    fun wire hwire => (hmove.emitted_logged hitems wire hwire).mono hgrows⟩,
    fun wire hwire => (h.arriving wire hwire).mono hgrows,
    fun entry hentry => hgrows (h.opened entry hentry)⟩

theorem Linked.of_receiver {sender : Engine} {receiver receiver' : Endpoint}
    {pre used made post : List Call}
    {channel : List Wire}
    (h : Linked sender (taken.toList ++ channel) receiver)
    (hstep : Endpoint.Steps guard receiver receiver' emitted taken choice pre used made post) :
    Linked sender channel receiver' := by
  obtain ⟨hchannel, harriving, hopened⟩ := h
  rw [hstep.before] at harriving
  -- what is processed next was processed already, or has just been delivered
  have hmade : (∀ wire ∈ made.flatMap Call.arriving, wire ∈ taken.toList) →
      ∀ wire ∈ receiver'.frames.flatMap Call.arriving, wire.Logged sender.history.queued := by
    intro hmade wire hwire
    rw [hstep.after] at hwire
    simp only [flatMap_append, mem_append] at hwire harriving
    rcases hwire with hwire | hwire | hwire
    · exact harriving wire (.inl hwire)
    · exact hchannel wire (mem_append_left _ (hmade wire hwire))
    · exact harriving wire (.inr (.inr hwire))
  have hrest : ∀ wire ∈ channel, wire.Logged sender.history.queued :=
    fun wire hwire => hchannel wire (mem_append_right _ hwire)
  have hmove := hstep.move
  generalize receiver.engine = e at *
  generalize he' : receiver'.engine = e' at *
  cases hmove with
  | @run call _ _ heffect =>
    refine ⟨hrest, hmade (by simp [heffect.arriving_nil]), ?_⟩
    rw [he']
    cases heffect.arrivals with
    | quiet hsame => exact hsame ▸ hopened
    | failed _ _ he' => exact he' ▸ hopened
    | @opened token body hcall _ _ _ he' =>
      subst hcall he'
      exact forall_mem_append.mpr ⟨hopened, forall_mem_singleton.mpr
        (harriving (.sealed token body) (by simp [Call.arriving])).2⟩
  | call hcallable =>
    refine ⟨hrest, hmade ?_, he' ▸ hopened⟩
    have hneutral := Engine.callable_neutral hcallable
    cases ‹Call› <;> first | (simp [Call.arriving]; done) | cases hneutral
  | pump => exact ⟨hrest, hmade (by simp), he' ▸ hopened⟩
  | sent | sendFails | release =>
    exact ⟨hrest, hmade (by simp [Call.arriving, failCall]), he' ▸ hopened⟩
  | deliver => exact ⟨hrest, hmade fun _ hwire => hwire, he' ▸ hopened⟩

/-- In every run of two joined sessions each side opens only what the other one
queued. -/
theorem World.Run.linked {config : EndpointRole → Config}
    {world : World} (h : World.Run config guard world) (side : EndpointRole) :
    Linked (world.endpoint side).engine (world.incoming side.peer) (world.endpoint side.peer) := by
  refine World.Run.link (L := fun sender channel receiver =>
      Linked sender.engine channel receiver)
    (K := fun world => ∀ side, ItemsLogged (world.endpoint side).engine)
    (fun _ hrun side => (hrun.endpoint side).itemsLogged) ?_ ?_ ?_ h side
  · intro side
    exact ⟨by simp, by simp [Endpoint.initial, Endpoint.frames, Call.arriving],
      by simp [Endpoint.initial]⟩
  · exact fun hknown _ hlinked hstep _ =>
      hlinked.of_sender hstep.move (hknown _)
  · exact fun _ _ hlinked hstep _ => hlinked.of_receiver hstep

end Yume.Session
