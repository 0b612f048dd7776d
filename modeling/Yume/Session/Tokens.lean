/-
The one-use record keys of one session: which tokens were taken, sealed and
queued, in what order, and which pending section holds the token that is not
queued yet.
-/
import Yume.Session.Roles

namespace Yume.Session

open Yume.Lib Engine Call List

namespace Call

/-- The token a section holds and has not passed to `seal_record`. -/
def unsealed : Call → List RecordKeyToken
  | .sealFrame request _ token => if request.protect then [token] else []
  | _ => []

/-- The protected record a section holds between its token and the queue. -/
def unqueued : Call → List (RecordKeyToken × Record)
  | .sealFrame request _ token | .publish request _ token _ _ =>
    if request.protect then [(token, request.record)] else []
  | _ => []

/-- Has this section lost a consumed token? -/
def losesToken : Call → Bool
  | .tokenLost request _ _ => request.protect
  | _ => false

theorem tokens_of_lockRole {call : Call} (h : call.lockRole = 0) :
    call.unsealed = [] ∧ call.unqueued = [] := by
  cases call <;> first
    | exact ⟨rfl, rfl⟩
    | (rename_i request _ _
       cases hp : request.protect <;> simp_all [unsealed, unqueued, lockRole])
    | (rename_i request _ _ _ _
       cases hp : request.protect <;> simp_all [unsealed, unqueued, lockRole])

end Call

/-- Sections without the record-order lock hold no token. -/
theorem tokens_of_unlocked {frames : List Call} (h : weigh lockRole frames = 0) :
    frames.flatMap unsealed = [] ∧ frames.flatMap unqueued = [] := by
  have hcall : ∀ call ∈ frames, call.lockRole = 0 := fun call hcall =>
    Nat.le_zero.mp (h ▸ le_weigh_of_mem hcall)
  simp only [flatMap_eq_nil_iff]
  exact ⟨fun call hc => (tokens_of_lockRole (hcall call hc)).1,
    fun call hc => (tokens_of_lockRole (hcall call hc)).2⟩

theorem Owner.resume_tokens (owner : Owner) (request : Request)
    (status : Status) (admission : QueueAdmission) :
    (owner.resume request status admission).flatMap unsealed = [] ∧
      (owner.resume request status admission).flatMap unqueued = [] := by
  cases owner <;> simp only [Owner.resume] <;> (repeat' split) <;>
    exact ⟨rfl, rfl⟩

/-- The engine's record-key state and the history of its tokens. -/
structure TokenView where
  committed : List (RecordKeyToken × Record)
  sealed : List RecordKeyToken
  queued : List (RecordKeyToken × Record)
  epoch : Nat
  nextSequence : Nat
  sequenceExhausted : Bool
  rekeyPending : Bool
  rekeyEpoch : Nat

def Engine.tokenView (e : Engine) : TokenView where
  committed := e.history.committed
  sealed := e.history.sealed
  queued := e.history.queued
  epoch := e.outbound.epoch
  nextSequence := e.outbound.nextSequence
  sequenceExhausted := e.outbound.sequenceExhausted
  rekeyPending := e.outbound.rekeyPending
  rekeyEpoch := e.outbound.rekeyEpoch

@[simp] theorem Engine.tokenView_committed (e : Engine) :
    e.tokenView.committed = e.history.committed := rfl

@[simp] theorem Engine.tokenView_queued (e : Engine) : e.tokenView.queued = e.history.queued := rfl

namespace TokenView

/-- The view after a record took the next token. -/
def take (view : TokenView) (record : Record) : TokenView :=
  { view with
    committed := view.committed ++ [(⟨view.epoch, view.nextSequence⟩, record)]
    nextSequence := view.nextSequence +
      if view.nextSequence = maxSequence then 0 else 1
    sequenceExhausted :=
      view.sequenceExhausted || decide (view.nextSequence = maxSequence) }

def noteSealed (view : TokenView) (token : RecordKeyToken) : TokenView :=
  { view with sealed := view.sealed ++ [token] }

def enqueue (view : TokenView) (token : RecordKeyToken) (record : Record) :
    TokenView :=
  { view with queued := view.queued ++ [(token, record)] }

def startRekey (view : TokenView) : TokenView :=
  { view with rekeyPending := true, rekeyEpoch := view.epoch + 1 }

def commitRekey (view : TokenView) : TokenView :=
  { view with epoch := view.rekeyEpoch, rekeyPending := false }

end TokenView

/-- What one section does to the tokens. -/
inductive TokenChange (e : Engine) (call : Call) (e' : Engine)
    (made : List Call) : Prop where
  | quiet : e'.tokenView = e.tokenView →
    made.flatMap unsealed = call.unsealed →
    made.flatMap unqueued = call.unqueued → TokenChange e call e' made
  | take {r r' o} : e.terminal = false → r.protect = true →
    e.tokenView.sequenceExhausted = false → r'.protect = true →
    r'.record = r.record → e'.tokenView = e.tokenView.take r.record →
    call = .takeToken r o →
    made = [.sealFrame r' o ⟨e.tokenView.epoch, e.tokenView.nextSequence⟩] →
    TokenChange e call e' made
  | sealing {r o token} : r.protect = true →
    (∃ wire size, made = [.publish r o token wire size]) ∨
      (∃ status, made = [.tokenLost r o status]) →
    e'.tokenView = e.tokenView.noteSealed token → call = .sealFrame r o token →
    TokenChange e call e' made
  | enqueue {r o token wire size} : e.terminal = false → r.protect = true →
    made.flatMap unsealed = [] → made.flatMap unqueued = [] →
    e'.tokenView = e.tokenView.enqueue token r.record →
    call = .publish r o token wire size → TokenChange e call e' made
  | drop {r o token wire size} : e.terminal = true ∨ r.protect = false →
    e'.tokenView = e.tokenView →
    made.flatMap unsealed = [] → made.flatMap unqueued = [] →
    call = .publish r o token wire size → TokenChange e call e' made
  | startRekey : e.tokenView.rekeyPending = false →
    made.flatMap unsealed = [] → made.flatMap unqueued = [] →
    call.lockRole = 0 → e'.tokenView = e.tokenView.startRekey →
    TokenChange e call e' made
  | commitRekey : e.tokenView.rekeyPending = true →
    made.flatMap unsealed = [] → made.flatMap unqueued = [] →
    call.lockRole = 0 → e'.tokenView = e.tokenView.commitRekey →
    TokenChange e call e' made

namespace TokenChange

variable {e e' : Engine} {call : Call} {made : List Call}

/-- A section that ends `enqueue_record` before its token. -/
theorem resume {owner : Owner} {request : Request} {status : Status}
    {admission : QueueAdmission} (hview : e'.tokenView = e.tokenView)
    (hsealed : call.unsealed = []) (hqueued : call.unqueued = []) :
    TokenChange e call e' (owner.resume request status admission) := by
  obtain ⟨h1, h2⟩ := owner.resume_tokens request status admission
  exact .quiet hview (h1.trans hsealed.symm) (h2.trans hqueued.symm)

/-- A section that never holds the record-order lock. -/
theorem unlocked (hview : e'.tokenView = e.tokenView) (hcall : call.lockRole = 0)
    (hmade : weigh lockRole made = 0) : TokenChange e call e' made := by
  obtain ⟨h1, h2⟩ := tokens_of_lockRole hcall
  obtain ⟨h3, h4⟩ := tokens_of_unlocked hmade
  exact .quiet hview (h3.trans h1.symm) (h4.trans h2.symm)

end TokenChange

variable {e e' : Engine} {made : List Call}

theorem Engine.tokenView_take {r : Request} {bytes : Nat}
    {now : Time} (hhistory : e'.history = e.history)
    (houtbound : e'.outbound = e.outbound) :
    (e'.committed r bytes now).tokenView = e.tokenView.take r.record := by
  simp only [tokenView, committed, allocateToken, TokenView.take, hhistory, houtbound]
  split <;> rename_i hlast <;> split <;> simp [hlast]

/-- Each branch changes the tokens in one of the listed ways. -/
theorem Effect.tokens {choice : Choice} {call : Call} (h : Effect e choice call e' made) :
    TokenChange e call e' made := by
  cases h with
  | idle hc =>
    exact .unlocked rfl (call.neutral_roles (call.passive_neutral hc)).2.2.1 rfl
  | receiveFailing hc => exact .unlocked rfl (call.receiving_roles hc).2.2.1 rfl
  | enqueueRefused | admitLeaves | deferLeaves | deferPushLeaves | deferPushes | tokenLeaves
  | tokenUnadmitted | tokenExhausted | tokenFails | bareLost => exact .resume rfl rfl rfl
  | tokenBare _ _ _ hbare =>
    refine .quiet rfl ?_ ?_ <;> simp [unsealed, unqueued, hbare]
  | tokenTaken hopen _ _ hprotect hleft =>
    refine .take hopen.live hprotect hleft ?_ ?_ (tokenView_take rfl rfl) rfl rfl
    · exact hprotect
    · rfl
  | @sealLost r =>
    cases hprotect : r.protect with
    | true =>
      refine .sealing hprotect (.inr ⟨_, rfl⟩) ?_ rfl
      simp [tokenView, sealFailed, noteSealed, TokenView.noteSealed, hprotect]
    | false =>
      refine .quiet ?_ ?_ ?_ <;>
        simp [tokenView, sealFailed, noteSealed, unsealed, unqueued, hprotect]
  | @sealDone r =>
    cases hprotect : r.protect with
    | true =>
      refine .sealing hprotect (.inl ⟨_, _, rfl⟩) ?_ rfl
      simp [tokenView, noteSealed, TokenView.noteSealed, hprotect]
    | false =>
      refine .quiet ?_ ?_ ?_ <;>
        simp [tokenView, noteSealed, unsealed, unqueued, hprotect]
  | publishStopped hstopped =>
    exact .drop (.inl hstopped) rfl (Owner.resume_tokens ..).1 (Owner.resume_tokens ..).2 rfl
  | @publishes r _ _ _ _ hlive =>
    obtain ⟨h1, h2⟩ := Owner.resume_tokens _ r Status.success .accepted
    cases hprotect : r.protect with
    | true =>
      refine .enqueue hlive hprotect h1 h2 ?_ rfl
      simp [tokenView, pushItem, unlock, TokenView.enqueue, hprotect]
    | false =>
      refine .drop (.inr hprotect) ?_ h1 h2 rfl
      simp [tokenView, pushItem, unlock, hprotect]
  | rekeyStarts _ hidle => exact .startRekey hidle rfl rfl rfl rfl
  | openSucceeds => exact .unlocked rfl rfl (dispatch_roles _ _).2.2.1
  | commitsRekey _ hpending hepoch =>
    subst hepoch
    exact .commitRekey hpending rfl rfl rfl rfl
  | _ => exact .quiet rfl rfl rfl

/-- Outside calls and carrier events touch no token. -/
theorem Move.tokens {choice : Choice} {used : List Call}
    {emitted taken : Option Wire} (h : Move e choice used e' made emitted taken) :
    (∃ call, used = [call] ∧ TokenChange e call e' made) ∨
    (used = [] ∧ e'.tokenView = e.tokenView ∧ weigh lockRole made = 0) := by
  cases h with
  | run heffect => exact .inl ⟨_, rfl, heffect.tokens⟩
  | call hcallable =>
    have hlock := (neutral_roles (callable_neutral hcallable)).2.2.1
    exact .inr ⟨rfl, rfl, by simp [hlock]⟩
  | _ => exact .inr ⟨rfl, rfl, rfl⟩

/-- The token history by itself: the sequence numbers count the tokens, and the
epochs never decrease. -/
structure TokenLog (view : TokenView) : Prop where
  sequences : view.committed.map (·.1.sequence) = List.range view.committed.length
  next : view.sequenceExhausted = false →
    view.nextSequence = view.committed.length ∧ view.nextSequence ≤ maxSequence
  bounded : view.committed.length ≤ maxSequence + 1
  epochs : (view.committed.map (·.1.epoch)).Pairwise (· ≤ ·)
  epoch_le : ∀ entry ∈ view.committed, entry.1.epoch ≤ view.epoch
  rekey : view.rekeyPending = true → view.rekeyEpoch = view.epoch + 1

theorem TokenLog.take {view : TokenView} {record : Record} (h : TokenLog view)
    (hleft : view.sequenceExhausted = false) : TokenLog (view.take record) := by
  obtain ⟨hnext, hmax⟩ := h.next hleft
  refine ⟨?_, ?_, ?_, ?_, ?_, h.rekey⟩
  · simp [TokenView.take, h.sequences, range_succ, hnext]
  · intro hstill
    simp only [TokenView.take, hleft, Bool.false_or, decide_eq_false_iff_not] at hstill ⊢
    simp only [hstill, if_false, length_append, length_singleton]
    omega
  · simp only [TokenView.take, length_append, length_singleton]
    omega
  · simp only [TokenView.take, map_append, map_singleton,
      pairwise_append, pairwise_singleton, mem_map,
      mem_singleton, forall_eq]
    refine ⟨h.epochs, trivial, ?_⟩
    rintro _ ⟨entry, hentry, rfl⟩
    exact h.epoch_le entry hentry
  · intro entry hentry
    simp only [TokenView.take, mem_append, mem_singleton] at hentry
    rcases hentry with hentry | rfl
    · exact h.epoch_le entry hentry
    · exact Nat.le_refl _

theorem TokenLog.commitRekey {view : TokenView} (h : TokenLog view)
    (hpending : view.rekeyPending = true) : TokenLog view.commitRekey := by
  have hepoch := h.rekey hpending
  refine { h with epoch_le := ?_, rekey := by simp [TokenView.commitRekey] }
  intro entry hentry
  have := h.epoch_le entry hentry
  simp only [TokenView.commitRekey]
  omega

theorem TokenChange.log {call : Call}
    (hchange : TokenChange e call e' made) (h : TokenLog e.tokenView) :
    TokenLog e'.tokenView := by
  cases hchange with
  | quiet hview => exact hview ▸ h
  | take _ _ hleft _ _ hview => exact hview ▸ h.take hleft
  | sealing _ _ hview | enqueue _ _ _ _ hview =>
    rw [hview]
    exact { h with }
  | drop _ hview => exact hview ▸ h
  | startRekey _ _ _ _ hview =>
    rw [hview]
    exact { h with rekey := fun _ => rfl }
  | commitRekey hpending _ _ _ hview => exact hview ▸ h.commitRekey hpending

/-- The taken tokens are the sealed ones and the one still to be sealed.  The
queued records, and the one still to be queued, stand in token order. -/
structure TokenHeld (view : TokenView) (frames : List Call) : Prop where
  sealed : view.committed.map Prod.fst = view.sealed ++ frames.flatMap unsealed
  queued : (view.queued ++ frames.flatMap unqueued).Sublist view.committed

section Held

variable {e e' : Engine} {call : Call} {pre used made post : List Call}

/-- Beside a section that holds the record-order lock no section holds a
token. -/
theorem tokens_beside_lock (hroles : RoleInv e (pre ++ (used ++ post)))
    (hlock : 1 ≤ weigh lockRole used) :
    pre.flatMap unsealed = [] ∧ pre.flatMap unqueued = [] ∧
      post.flatMap unsealed = [] ∧ post.flatMap unqueued = [] := by
  have htotal := hroles.lock
  have hflag : flag e.orderingLocked ≤ 1 := by cases e.orderingLocked <;> decide
  simp only [weigh_append] at htotal
  obtain ⟨h1, h2⟩ := tokens_of_unlocked (show weigh lockRole pre = 0 by omega)
  obtain ⟨h3, h4⟩ := tokens_of_unlocked (show weigh lockRole post = 0 by omega)
  exact ⟨h1, h2, h3, h4⟩

theorem TokenChange.held (hchange : TokenChange e call e' made)
    (hroles : RoleInv e (pre ++ ([call] ++ post)))
    (h : TokenHeld e.tokenView (pre ++ ([call] ++ post))) :
    TokenHeld e'.tokenView (pre ++ (made ++ post)) := by
  obtain ⟨hsealed, hqueued⟩ := h
  simp only [flatMap_append, flatMap_singleton] at hsealed hqueued
  cases hchange with
  | quiet hview h1 h2 =>
    rw [hview]
    constructor <;> simp only [flatMap_append, h1, h2] <;> assumption
  | take _ hprotect _ hprotect' hrecord hview hcall hmade =>
    subst hcall hmade
    rw [hview]
    obtain ⟨h1, h2, h3, h4⟩ := tokens_beside_lock hroles
      (by simp [lockRole, hprotect])
    simp only [h1, h2, h3, h4, unsealed, unqueued, append_nil] at hsealed hqueued
    constructor <;>
      simp only [TokenView.take, flatMap_append, flatMap_singleton,
        h1, h2, h3, h4, unsealed, unqueued, hprotect', hrecord,
        if_true, append_nil, nil_append, map_append,
        map_singleton, hsealed]
    exact hqueued.append (.refl _)
  | sealing hprotect hmade hview hcall =>
    subst hcall
    rw [hview]
    obtain ⟨h1, h2, h3, h4⟩ := tokens_beside_lock hroles
      (by simp [lockRole, hprotect])
    simp only [h1, h2, h3, h4, unsealed, unqueued, hprotect, if_true,
      append_nil, nil_append] at hsealed hqueued
    -- A lost record leaves the list of records that are still to be queued.
    rcases hmade with ⟨_, _, rfl⟩ | ⟨_, rfl⟩ <;> constructor <;>
      simp only [TokenView.noteSealed, flatMap_append,
        flatMap_singleton, h1, h2, h3, h4, unsealed, unqueued,
        hprotect, if_true, append_nil, nil_append, hsealed]
    · exact hqueued
    · exact (sublist_append_left _ _).trans hqueued
  | enqueue _ hprotect h5 h6 hview hcall =>
    subst hcall
    rw [hview]
    obtain ⟨h1, h2, h3, h4⟩ := tokens_beside_lock hroles
      (by simp [lockRole, hprotect])
    simp only [h1, h2, h3, h4, unsealed, unqueued, hprotect, if_true,
      append_nil, nil_append] at hsealed hqueued
    constructor <;>
      simp only [TokenView.enqueue, flatMap_append, h1, h2, h3, h4, h5, h6, append_nil, hsealed]
    exact hqueued
  | drop _ hview h5 h6 hcall =>
    subst hcall
    rw [hview]
    constructor <;> simp only [flatMap_append, h5, h6, nil_append]
    · exact hsealed
    exact ((List.Sublist.refl _).append
      ((List.Sublist.refl _).append (sublist_append_right _ _))).trans
      hqueued
  | startRekey _ h5 h6 hlock hview | commitRekey _ h5 h6 hlock hview =>
    rw [hview]
    obtain ⟨h7, h8⟩ := tokens_of_lockRole hlock
    constructor <;> simp only [flatMap_append, h5, h6]
    · exact h7 ▸ hsealed
    · exact h8 ▸ hqueued

end Held

/-- In every run the tokens are numbered, held and queued in order. -/
theorem Endpoint.Run.tokens {config : Config} {guard : Guard}
    {endpoint : Endpoint} (h : Endpoint.Run config guard endpoint) :
    TokenLog endpoint.engine.tokenView ∧ TokenHeld endpoint.engine.tokenView endpoint.frames := by
  refine Run.invariant (K := RoleInv)
    (P := fun e frames => TokenLog e.tokenView ∧ TokenHeld e.tokenView frames)
    (fun _ hrun => hrun.roles) ?_ ?_ h
  · constructor
    · refine ⟨rfl, fun _ => ⟨rfl, ?_⟩, Nat.zero_le _, .nil, ?_, ?_⟩ <;>
        simp [initial, tokenView]
    · exact ⟨rfl, .refl _⟩
  intro e e' choice pre used made post _ _ hroles _ hinv hmove _
  rcases hmove.tokens with ⟨call, rfl, hchange⟩ | ⟨rfl, hview, hlock⟩
  · exact ⟨hchange.log hinv.1, hchange.held hroles hinv.2⟩
  obtain ⟨h1, h2⟩ := tokens_of_unlocked hlock
  refine ⟨hview ▸ hinv.1, ?_⟩
  obtain ⟨hsealed, hqueued⟩ := hinv.2
  rw [hview]
  constructor <;> simp only [flatMap_append, h1, h2, nil_append]
  · simpa using hsealed
  · simpa using hqueued

end Yume.Session
