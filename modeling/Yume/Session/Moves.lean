/-
Runs of one session and of two joined sessions.  A move replaces one pending
critical section, or starts a new thread, and every invariant of the engine and
its pending calls is proved from what one move does.
-/
import Yume.Lib.Runs
import Yume.Lib.Stacks
import Yume.Session.Events

namespace Yume.Session

open Yume.Lib List Option

namespace Endpoint

/-- Every pending critical section of every thread. -/
def frames (endpoint : Endpoint) : List Call := endpoint.threads.flatten

/-- The critical section a thread runs next. -/
def next (endpoint : Endpoint) (thread : Nat) : Option Call :=
  (endpoint.threads[thread]?).bind List.head?

/-- The pending critical sections besides the one a thread runs next. -/
def others (endpoint : Endpoint) (thread : Nat) : List Call :=
  (endpoint.threads.set thread ((endpoint.threads[thread]?.getD []).tail)).flatten

end Endpoint

/-- What a step shows of the completions. -/
def Endpoint.events (endpoint : Endpoint) : Label → List Event
  | .run thread _ => ((endpoint.next thread).map endpoint.engine.events).getD []
  | .sent status _ =>
    (endpoint.engine.queue.active.map (·.events status)).getD []
  | _ => []

/-- A condition on the critical section about to run: the engine's state, what
the environment decides there, the section and the other pending sections. -/
abbrev Guard := Engine → Choice → Call → List Call → Prop

/-- Every section may run at any time. -/
def unrestricted : Guard := fun _ _ _ _ => True

instance (engine : Engine) (choice : Choice) (call : Call)
    (others : List Call) : Decidable (unrestricted engine choice call others) :=
  .isTrue trivial

namespace Endpoint

def Meets (guard : Guard) (endpoint : Endpoint) : Label → Prop
  | .run thread choice => ∀ call, endpoint.next thread = some call →
    guard endpoint.engine choice call (endpoint.others thread)
  | _ => True

def advance (endpoint : Endpoint) (label : Label) : Option Endpoint :=
  (endpoint.step label).map Prod.fst

/-- The endpoints a session can reach from its establishment by steps that all
meet the guard, with any records delivered to it. -/
def Run (config : Config) (guard : Guard) : Endpoint → Prop :=
  Reaches advance (Meets guard) (initial config)

end Endpoint

/-- The engine after a send, of which only the budget and the controls change. -/
abbrev Engine.afterSend (e : Engine) (active : ActiveSend) (now : Time) : Engine :=
  ({ e with queue := { e.queue with active := none } }.release
    active.wireBytes active.isControl).withCredit (e.settleSend active now)

/-- What one step does to the engine, the section it consumes, the sections it
leaves, and the records it hands to the carrier and takes from it. -/
inductive Move (e : Engine) (choice : Choice) :
    List Call → Engine → List Call → Option Wire → Option Wire → Prop where
  | run {call e' made} : Effect e choice call e' made → Move e choice [call] e' made none none
  | call {operation} : e.callable operation = true → Move e choice [] e [operation] none none
  | pump {item rest} : e.terminal = false → e.queue.active = none →
    e.queue.items = item :: rest →
    Move e choice [] (e.activate item rest) [] (some item.wire) none
  | sent {active now} : e.queue.active = some active →
    Move e choice [] (e.afterSend active now) [.drainControls] none none
  | sendFails {active now status} : e.queue.active = some active →
    Move e choice [] (e.afterSend active now) [failCall status] none none
  | release {index id bytes} : e.leases[index]? = some (id, bytes) →
    Move e choice [] { e with leases := e.leases.eraseIdx index }
      [.returnCredit id bytes false] none none
  | deliver {wire} : e.terminal = false → e.receiveInProgress = false →
    Move e choice [] { e with receiveInProgress := true } [.processReceived wire] none (some wire)

/-- A move runs one section, or comes from outside. -/
theorem Move.run_or_outside {e e' : Engine} {choice : Choice}
    {used made : List Call} {emitted taken : Option Wire}
    (h : Move e choice used e' made emitted taken) :
    (∃ call, used = [call] ∧ Effect e choice call e' made) ∨ used = [] := by
  cases h with
  | run heffect => exact .inl ⟨_, rfl, heffect⟩
  | _ => exact .inr rfl

namespace Engine

variable {e e' : Engine} {choice : Choice} {made : List Call}

theorem sendPump_move {wire : Wire} (h : e.sendPump = some (e', wire)) :
    Move e choice [] e' [] (some wire) none ∧ Shows e [] e' [] [] := by
  unfold sendPump at h
  split at h
  · cases h
  rename_i item rest hitems
  split at h <;> cases h
  rename_i hidle
  simp only [not_or, Bool.not_eq_true, isSome_eq_false_iff, isNone_iff_eq_none] at hidle
  exact ⟨.pump hidle.1 hidle.2 hitems, .other nofun⟩

theorem sendComplete_move {status : Status} {now : Time}
    (h : e.sendComplete status now = some (e', made)) :
    Move e choice [] e' made none none ∧
      Shows e [] e' made ((e.queue.active.map (·.events status)).getD []) := by
  unfold sendComplete at h
  split at h
  · cases h
  rename_i active hactive
  cases h
  rw [hactive]
  refine ⟨?_, .sent hactive⟩
  have hframe : e.settleSend active now = e.afterSend active now := completeControl_frame ..
  rw [hframe]
  split
  · exact .sent hactive
  · exact .sendFails hactive

theorem releaseLease_move {index : Nat} (h : e.releaseLease index = some (e', made)) :
    Move e choice [] e' made none none ∧ Shows e [] e' made [] := by
  unfold releaseLease at h
  split at h <;> cases h
  exact ⟨.release ‹_›, .other id⟩

theorem beginReceive_move {wire : Wire} (h : e.beginReceive wire = some (e', made)) :
    Move e choice [] e' made none (some wire) ∧ Shows e [] e' made [] := by
  unfold beginReceive at h
  split at h <;> cases h
  rename_i hidle
  simp only [not_or, Bool.not_eq_true] at hidle
  exact ⟨.deliver hidle.1 hidle.2, .other id⟩

end Engine

namespace Endpoint

theorem spawn_stacks {endpoint next : Endpoint} {outcome : Outcome}
    {wire : Option Wire} (h : endpoint.spawn outcome = some (next, wire)) :
    ∃ made, outcome = some (next.engine, made) ∧ wire = none ∧
      next.threads = endpoint.threads ++ [made] := by
  cases outcome with
  | none => simp [spawn] at h
  | some result =>
    simp only [spawn, map_some, some.injEq, Prod.mk.injEq] at h
    obtain ⟨rfl, rfl⟩ := h
    exact ⟨result.2, rfl, rfl, rfl⟩

/-- A guarded step: a move on a part of the pending sections. -/
structure Steps (guard : Guard) (endpoint next : Endpoint)
    (emitted taken : Option Wire) (choice : Choice)
    (pre used made post : List Call) : Prop where
  before : endpoint.frames = pre ++ (used ++ post)
  after : next.frames = pre ++ (made ++ post)
  move : Move endpoint.engine choice used next.engine made emitted taken
  guarded : ∀ call, used = [call] → guard endpoint.engine choice call (pre ++ post)

end Endpoint

/-- The record a label takes from the carrier. -/
def Label.taken : Label → Option Wire
  | .deliver wire => some wire
  | _ => none

namespace Endpoint

variable {guard : Guard} {config : Config} {endpoint : Endpoint}

/-- One step runs the first section of a stack, or leaves the stacks as they are
beside a new one. -/
theorem step_stacks {endpoint next : Endpoint} {label : Label}
    {wire : Option Wire} (h : endpoint.step label = some (next, wire)) :
    (∃ thread choice call rest made, label = .run thread choice ∧ wire = none ∧
      endpoint.threads[thread]? = some (call :: rest) ∧
      next.threads = endpoint.threads.set thread (made ++ rest) ∧
      exec endpoint.engine choice call = some (next.engine, made)) ∨
    (∃ made added, (∀ thread choice, label ≠ .run thread choice) ∧
      added ⊆ [made] ∧ added.flatten = made ∧
      next.threads = endpoint.threads ++ added ∧
      Move endpoint.engine {} [] next.engine made wire label.taken ∧
      Shows endpoint.engine [] next.engine made (endpoint.events label)) := by
  cases label with
  | call operation =>
    simp only [step] at h
    split at h
    · rename_i hcallable
      obtain ⟨made, hmade, rfl, hthreads⟩ := spawn_stacks h
      simp only [some.injEq, Prod.mk.injEq] at hmade
      obtain ⟨heng, rfl⟩ := hmade
      exact .inr ⟨_, _, by simp, List.Subset.refl _, append_nil _, hthreads,
        heng ▸ ⟨.call hcallable, .other id⟩⟩
    · cases h
  | run thread choice =>
    simp only [step, map_eq_some_iff, Prod.mk.injEq] at h
    obtain ⟨after, hrun, rfl, rfl⟩ := h
    unfold runThread at hrun
    split at hrun
    · rename_i call rest hthread
      rw [map_eq_some_iff] at hrun
      obtain ⟨result, hexec, rfl⟩ := hrun
      exact .inl ⟨thread, choice, call, rest, result.2, rfl, rfl, hthread, rfl, hexec⟩
    · cases hrun
  | pump =>
    simp only [step, map_eq_some_iff, Prod.mk.injEq] at h
    obtain ⟨result, hpump, rfl, rfl⟩ := h
    exact .inr ⟨[], [], by simp, nil_subset _, rfl, (append_nil _).symm, Engine.sendPump_move hpump⟩
  | sent | release | deliver =>
    obtain ⟨made, hmade, rfl, hthreads⟩ := spawn_stacks h
    refine .inr ⟨made, [made], by simp, List.Subset.refl _, append_nil _, hthreads, ?_⟩
    first
      | exact Engine.sendComplete_move hmade
      | exact Engine.releaseLease_move hmade
      | exact Engine.beginReceive_move hmade

/-- Every step is a guarded move with its events. -/
theorem step_steps {endpoint next : Endpoint} {label : Label} {wire : Option Wire}
    (h : endpoint.step label = some (next, wire))
    (hguard : endpoint.Meets guard label) :
    ∃ choice pre used made post,
      Steps guard endpoint next wire label.taken choice pre used made post ∧
      Shows endpoint.engine used next.engine made (endpoint.events label) := by
  rcases step_stacks h with
    ⟨thread, choice, call, rest, made, rfl, rfl, hthread, hthreads, hexec⟩ |
      ⟨made, added, -, -, hmade, hthreads, hmove, hshows⟩
  · obtain ⟨pre, post, hflat, hset⟩ := flatten_set_cons hthread
    have hnext : endpoint.next thread = some call := by simp [Endpoint.next, hthread]
    have hothers : endpoint.others thread = pre ++ post := by
      simpa [others, hthread] using hset []
    refine ⟨choice, pre, [call], made, post,
      ⟨hflat, (congrArg List.flatten hthreads).trans (hset made), .run (exec_effect hexec), ?_⟩, ?_⟩
    · rintro call' ⟨⟩
      exact hothers ▸ hguard call hnext
    simp only [events, hnext, map_some, getD_some]
    exact .run
  · refine ⟨{}, endpoint.frames, [], made, [], ⟨by simp, ?_, hmove, by simp⟩, hshows⟩
    simp [frames, hthreads, hmade]

instance (guard : Guard)
    [∀ engine choice call others, Decidable (guard engine choice call others)]
    (endpoint : Endpoint) (label : Label) :
    Decidable (endpoint.Meets guard label) :=
  match label with
  | .run thread choice =>
    match h : endpoint.next thread with
    | none => .isTrue fun _ hnext => nomatch h ▸ hnext
    | some call => decidable_of_iff (guard endpoint.engine choice call (endpoint.others thread))
      ⟨fun hguard _ hnext => Option.some.inj (h.symm.trans hnext) ▸ hguard,
        fun hguard => hguard call h⟩
  | .call _ | .pump | .sent _ _ | .release _ | .deliver _ => .isTrue trivial

/-- Takes the labels in order while each one meets the guard. -/
def follow (config : Config) (guard : Guard)
    [∀ engine choice call others, Decidable (guard engine choice call others)]
    (labels : List Label) : Option Endpoint :=
  runChecked advance (fun endpoint label => decide (endpoint.Meets guard label))
    (initial config) labels

/-- Labels that can be followed are a run. -/
theorem Run.of_follow [∀ engine choice call others, Decidable (guard engine choice call others)]
    {labels : List Label}
    (h : follow config guard labels = some endpoint) :
    Run config guard endpoint :=
  Reaches.of_runChecked (fun _ _ hcheck => of_decide_eq_true hcheck) h

/-- What an observation of the followed labels shows of some run. -/
theorem Run.exists_of_follow {α : Type} (config : Config) (guard : Guard)
    [∀ engine choice call others, Decidable (guard engine choice call others)]
    (labels : List Label) (observe : Endpoint → α) (seen : α)
    (h : (follow config guard labels).map observe = some seen) :
    ∃ endpoint, Run config guard endpoint ∧ observe endpoint = seen := by
  obtain ⟨endpoint, hfollow, hseen⟩ := map_eq_some_iff.mp h
  exact ⟨endpoint, .of_follow hfollow, hseen⟩

/-- An invariant of the engine and its pending sections, from one move.  What
is already known of every run may be used before and after the move. -/
theorem Run.invariant {K P : Engine → List Call → Prop}
    (hknown : ∀ endpoint, Run config guard endpoint → K endpoint.engine endpoint.frames)
    (hstart : P (initial config).engine (initial config).frames)
    (hmove : ∀ {engine engine' choice pre used made post emitted taken},
      K engine (pre ++ (used ++ post)) → K engine' (pre ++ (made ++ post)) →
      P engine (pre ++ (used ++ post)) →
      Move engine choice used engine' made emitted taken →
      (∀ call, used = [call] → guard engine choice call (pre ++ post)) →
      P engine' (pre ++ (made ++ post)))
    (h : Run config guard endpoint) :
    P endpoint.engine endpoint.frames := by
  refine Reaches.invariant (P := fun endpoint : Endpoint =>
    P endpoint.engine endpoint.frames) hstart ?_ h
  intro before label after hreach hP hok hnext
  have hK := hknown _ hreach
  have hK' := hknown _ (Reaches.tail hreach hok hnext)
  simp only [advance, map_eq_some_iff] at hnext
  obtain ⟨⟨next, wire⟩, hstep, rfl⟩ := hnext
  obtain ⟨choice, pre, used, made, post, hs, -⟩ := step_steps hstep hok
  rw [hs.before] at hP hK
  rw [hs.after] at hK' ⊢
  exact hmove hK hK' hP hs.move hs.guarded

/-- The endpoints of a run, each with the events on the way to it. -/
def Trace (config : Config) (guard : Guard) : List Event → Endpoint → Prop :=
  Traces advance (Meets guard) events (initial config)

/-- An invariant of the events, the engine and its pending sections, from one
move. -/
theorem Trace.invariant {K : Engine → List Call → Prop} {P : List Event → Engine → List Call → Prop}
    (hknown : ∀ endpoint, Run config guard endpoint → K endpoint.engine endpoint.frames)
    (hstart : P [] (initial config).engine (initial config).frames)
    (hmove : ∀ {log shown engine engine' choice pre used made post emitted taken},
      K engine (pre ++ (used ++ post)) → K engine' (pre ++ (made ++ post)) →
      P log engine (pre ++ (used ++ post)) →
      Move engine choice used engine' made emitted taken →
      Shows engine used engine' made shown →
      (∀ call, used = [call] → guard engine choice call (pre ++ post)) →
      P (log ++ shown) engine' (pre ++ (made ++ post)))
    {log : List Event} (h : Trace config guard log endpoint) :
    P log endpoint.engine endpoint.frames := by
  refine Traces.invariant (P := fun log (endpoint : Endpoint) =>
    P log endpoint.engine endpoint.frames) hstart ?_ h
  intro log before label after htrace hP hok hnext
  have hK := hknown _ htrace.reaches
  have hK' := hknown _ (Reaches.tail htrace.reaches hok hnext)
  simp only [advance, map_eq_some_iff] at hnext
  obtain ⟨⟨next, wire⟩, hstep, rfl⟩ := hnext
  obtain ⟨choice, pre, used, made, post, hs, hshows⟩ := step_steps hstep hok
  rw [hs.before] at hP hK
  rw [hs.after] at hK' ⊢
  exact hmove hK hK' hP hs.move hshows hs.guarded

/-- What an observation of the followed labels shows of some trace. -/
theorem Trace.exists_of_follow {α : Type} (config : Config) (guard : Guard)
    [∀ engine choice call others, Decidable (guard engine choice call others)]
    (labels : List Label) (observe : List Event × Endpoint → α) (seen : α)
    (h : (runObserved advance (fun endpoint label => decide (Meets guard endpoint label)) events
      (initial config) labels).map observe = some seen) :
    ∃ log endpoint, Trace config guard log endpoint ∧ observe (log, endpoint) = seen := by
  obtain ⟨⟨log, endpoint⟩, hfollow, hseen⟩ := map_eq_some_iff.mp h
  exact ⟨log, endpoint, Traces.of_runObserved
    (fun _ _ hcheck => of_decide_eq_true hcheck) hfollow, hseen⟩

end Endpoint

namespace World

def Meets (guard : Guard) (world : World) : WorldLabel → Prop
  | .step side label => (world.endpoint side).Meets guard label
  | .deliver _ => True

/-- The worlds two joined sessions can reach by steps that all meet the
guard. -/
def Run (config : EndpointRole → Config) (guard : Guard) : World → Prop :=
  Reaches step (Meets guard) (initial config)

variable {config : EndpointRole → Config} {guard : Guard} {world next : World}

/-- One side of the world takes the step; the other one waits. -/
theorem step_side {label : WorldLabel} (h : world.step label = some next)
    (hok : world.Meets guard label) :
    ∃ side mine after emitted channel, (world.endpoint side).step mine = some (after, emitted) ∧
      (world.endpoint side).Meets guard mine ∧
      world.incoming side = mine.taken.toList ++ channel ∧
      next.endpoint side = after ∧
      next.endpoint side.peer = world.endpoint side.peer ∧
      next.incoming side = channel ∧
      next.incoming side.peer = world.incoming side.peer ++ emitted.toList := by
  cases label with
  | step side label =>
    simp only [step] at h
    split at h
    · cases h
    rename_i hlabel
    rw [map_eq_some_iff] at h
    obtain ⟨⟨after, emitted⟩, hstep, rfl⟩ := h
    have htaken : label.taken = none := by
      cases label <;> first | rfl | exact absurd rfl hlabel
    exact ⟨side, label, after, emitted, _, hstep, hok, by rw [htaken]; rfl,
      by simp [advance], by cases side <;> simp [advance, EndpointRole.peer],
      by simp [advance], by cases side <;> simp [advance, EndpointRole.peer]⟩
  | deliver side =>
    simp only [step] at h
    split at h
    · cases h
    rename_i wire rest hincoming
    rw [map_eq_some_iff] at h
    obtain ⟨⟨after, emitted⟩, hstep, rfl⟩ := h
    exact ⟨side, .deliver wire, after, emitted, rest, hstep, trivial, hincoming, by simp [advance],
      by cases side <;> simp [advance, dropIncoming, EndpointRole.peer],
      by simp [advance, dropIncoming, hincoming],
      by cases side <;> simp [advance, dropIncoming, EndpointRole.peer]⟩

/-- Each side of a world's run is a run of its own session. -/
theorem Run.endpoint (h : Run config guard world) (side : EndpointRole) :
    Endpoint.Run (config side) guard (world.endpoint side) := by
  induction h with
  | refl => exact .refl
  | tail _ hok hnext ih =>
    obtain ⟨mover, mine, after, emitted, _, hstep, hmeets, _, hafter, hrest, _⟩ :=
      step_side hnext hok
    by_cases hside : side = mover
    · subst hside
      rw [hafter]
      exact .tail ih hmeets (by rw [Endpoint.advance, hstep]; rfl)
    have : side = mover.peer := by
      cases side <;> cases mover <;> first | rfl | exact absurd rfl hside
    rw [this, hrest, ← this]
    exact ih

/-- An invariant of one direction: a sender, the records on their way and their
receiver.  It is kept when the sender moves and when the receiver moves. -/
theorem Run.link {K : World → Prop} {L : Endpoint → List Wire → Endpoint → Prop}
    (hknown : ∀ world, Run config guard world → K world)
    (hstart : ∀ side, L (Endpoint.initial (config side)) [] (Endpoint.initial (config side.peer)))
    (hsend : ∀ {world next : World} {side emitted taken choice pre used made post},
      K world → K next →
      L (world.endpoint side) (world.incoming side.peer) (world.endpoint side.peer) →
      Endpoint.Steps guard (world.endpoint side) (next.endpoint side) emitted
        taken choice pre used made post →
      next.endpoint side.peer = world.endpoint side.peer →
      L (next.endpoint side) (world.incoming side.peer ++ emitted.toList)
        (world.endpoint side.peer))
    (hreceive : ∀ {world next : World} {side emitted taken choice pre used made post channel},
      K world → K next →
      L (world.endpoint side) (taken.toList ++ channel) (world.endpoint side.peer) →
      Endpoint.Steps guard (world.endpoint side.peer) (next.endpoint side.peer)
        emitted taken choice pre used made post →
      next.endpoint side = world.endpoint side →
      L (world.endpoint side) channel (next.endpoint side.peer))
    (h : Run config guard world) (side : EndpointRole) :
    L (world.endpoint side) (world.incoming side.peer) (world.endpoint side.peer) := by
  refine Reaches.invariant (P := fun world : World => ∀ side,
    L (world.endpoint side) (world.incoming side.peer) (world.endpoint side.peer)) hstart ?_ h side
  intro before label after hreach hL hok hnext side
  have hK := hknown _ hreach
  have hK' := hknown _ (Reaches.tail hreach hok hnext)
  obtain ⟨mover, mine, moved, emitted, channel, hstep, hmeets, htaken, hafter,
    hrest, hchannel, hemitted⟩ := step_side hnext hok
  obtain ⟨choice, pre, used, made, post, hs, -⟩ :=
    Endpoint.step_steps hstep hmeets
  rw [← hafter] at hs
  by_cases hside : side = mover
  · subst hside
    rw [hemitted, hrest]
    exact hsend hK hK' (hL side) hs hrest
  have hpeer : mover = side.peer := by
    cases side <;> cases mover <;> first | rfl | exact absurd rfl hside
  subst hpeer
  have hback : side.peer.peer = side := by cases side <;> rfl
  rw [hback] at hrest
  rw [hchannel, hrest]
  have hL' := hL side
  rw [htaken] at hL'
  exact hreceive hK hK' hL' hs hrest

instance (guard : Guard)
    [∀ engine choice call others, Decidable (guard engine choice call others)]
    (world : World) (label : WorldLabel) : Decidable (world.Meets guard label) :=
  match label with
  | .step side label =>
    inferInstanceAs (Decidable ((world.endpoint side).Meets guard label))
  | .deliver _ => .isTrue trivial

/-- Takes the labels in order while each one meets the guard. -/
def follow (config : EndpointRole → Config) (guard : Guard)
    [∀ engine choice call others, Decidable (guard engine choice call others)]
    (labels : List WorldLabel) : Option World :=
  runChecked step (fun world label => decide (world.Meets guard label)) (initial config) labels

/-- What an observation of the followed labels shows of some run. -/
theorem Run.exists_of_follow {α : Type} (config : EndpointRole → Config) (guard : Guard)
    [∀ engine choice call others, Decidable (guard engine choice call others)]
    (labels : List WorldLabel) (observe : World → α) (seen : α)
    (h : (follow config guard labels).map observe = some seen) :
    ∃ world, Run config guard world ∧ observe world = seen := by
  obtain ⟨world, hfollow, hseen⟩ := map_eq_some_iff.mp h
  exact ⟨world, Reaches.of_runChecked (fun _ _ hcheck => of_decide_eq_true hcheck) hfollow, hseen⟩

end World

/-- A session with one byte-stream service, and a peer like itself. -/
def sampleConfig (role : EndpointRole) : Config where
  role := role
  services := [⟨[1], .byteStream, 4, 0, false, false⟩]
  peerManifest := ⟨[⟨[1], .byteStream, 4⟩], 2 ^ 20⟩

def sampleOpen : OpenRequest := ⟨[1], .byteStream, none⟩

/-- Runs `n` sections of one thread. -/
def runs (thread n : Nat) : List Label := List.replicate n (.run thread {})

/-- The sample session advertises itself and becomes active. -/
def sampleStartup : List Label :=
  runs 0 18 ++ [.deliver (.sealed ⟨0, 0⟩ ⟨[], ⟨0, 0⟩, .capabilities
    (sampleConfig .client).peerManifest⟩)] ++ runs 1 3

def fromPeer (sequence : Nat) (record : Record) : Label :=
  .deliver (.sealed ⟨0, sequence⟩ ⟨[], ⟨0, sequence⟩, record⟩)

/-- A server has two writes waiting on stream 1, which it accepts in thread 8. -/
def twoWaiting (first second : Nat) : List Label :=
  sampleStartup ++ [.pump, .sent {} 0, .pump, .sent {} 0] ++
    [fromPeer 1 (.connectionCredit 8192)] ++ runs 4 5 ++
    [fromPeer 2 (.open 1 sampleOpen)] ++ runs 5 4 ++
    [.call (.streamWrite 1 ⟨0, first, first⟩)] ++ runs 6 3 ++
    [.call (.streamWrite 1 ⟨0, second, second⟩)] ++ runs 7 3 ++
    [.call (.completePeerOpen 1 {})]

/-- The two writes wait for credit, which has just arrived in thread 10. -/
def twoWrites (first second : Nat) : List Label :=
  twoWaiting first second ++ runs 8 11 ++ [.pump, .sent {} 0] ++ [fromPeer 3 (.streamCredit 1 8192)]

/-- One side of two joined sessions runs `n` sections of one thread. -/
def sideRuns (side : EndpointRole) (thread n : Nat) : List WorldLabel :=
  (runs thread n).map (.step side)

/-- One side starts an application call. -/
def starts (side : EndpointRole) (operation : Call) : List WorldLabel :=
  [.step side (.call operation)]

/-- One side hands its next record to the carrier, which sends it. -/
def sends (side : EndpointRole) : List WorldLabel :=
  [.step side .pump, .step side (.sent {} 0)]

/-- The carrier delivers a record to one side, whose new thread runs `n`
sections. -/
def receives (side : EndpointRole) (thread n : Nat) : List WorldLabel :=
  .deliver side :: sideRuns side thread n

/-- The two sample sessions exchange their manifests and first credits.  Each
side's next thread is the sixth. -/
def sampleConnected : List WorldLabel :=
  sideRuns .client 0 18 ++ sideRuns .server 0 18 ++
    sends .client ++ sends .client ++ sends .server ++ sends .server ++
    receives .server 3 3 ++ receives .server 4 5 ++
    receives .client 3 3 ++ receives .client 4 5

end Yume.Session
