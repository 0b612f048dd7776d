/-
A circuit at a node and its extension to the next hop.  Opening the next hop,
writing CREATE to it and reading CREATED from it are operations of a provider
that end when they like, after the extension they belong to was abandoned too.
An operation that completes before the call that started it returns is the
step right after that call, since the node does nothing more in between.
-/
import Yume.Circuit.Payloads
import Yume.Lib.Hex
import Yume.Lib.Runs

namespace Yume.CircuitNode

open Yume.Lib Yume.Circuit List Option

inductive CircuitReason where
  | unreachable
  | busy
  | timeout
  | protocol
  | refused
  | closing
deriving DecidableEq, Repr

/-- The status of a failed open, as far as `extend_reason` reads it. -/
inductive OpenFailure where
  | notFound
  | resourceExhausted
  | other
deriving DecidableEq, Repr

/-- `extend_reason`: what a failed extension tells the client. -/
def extendReason : OpenFailure → CircuitReason
  | .notFound => .refused
  | .resourceExhausted => .busy
  | .other => .unreachable

inductive Phase where
  | awaitCreate
  | «open»
  | extending
  | extended
deriving DecidableEq, Repr

/-- A stream to another node: the peer it was opened to, and for which of the
circuit's extensions. -/
structure Link where
  peer : Bytes
  extension : Nat
deriving DecidableEq, Repr

/-- An operation of an extension that a provider has not completed. -/
inductive Op where
  | opening (peer : Bytes) (extension : Nat)
  | creating (link : Link)
  | awaiting (link : Link)
deriving DecidableEq, Repr

/-- The extension an operation belongs to. -/
def Op.extension : Op → Nat
  | .opening _ extension => extension
  | .creating link => link.extension
  | .awaiting link => link.extension

/-- What the node tells the client about an extension; EXTENDED with the link
whose CREATED it passes on. -/
inductive Report where
  | extended (source : Link) (body : Bytes)
  | extendFailed (reason : CircuitReason)
  | circuitFailed (reason : CircuitReason)
deriving DecidableEq, Repr

/-- What was read where CREATED is expected. -/
inductive CreatedReply where
  | failed
  | notCreated
  | created (body : Bytes)
deriving DecidableEq, Repr

/-- What a circuit knows from the start, and the node's limit. -/
structure Setting where
  self : Bytes
  fromPeer : Bool
  predecessor : Bytes
  extendTimeout : Nat
deriving DecidableEq, Repr

/-- The circuit's own variables, then the operations outside, the number of
accepted EXTENDs, the links that were opened and closed, and the reports. -/
structure Circuit where
  closed : Bool
  closing : Bool
  phase : Phase
  terminal : Bool
  depth : Nat
  nextPeer : Bytes
  createBody : Bytes
  next : Option Link
  extendSince : Option Nat
  pending : List Op
  extensions : Nat
  opened : List Link
  closedLinks : List Link
  sent : List Report
deriving DecidableEq, Repr

def Circuit.start : Circuit where
  closed := false
  closing := false
  phase := .awaitCreate
  terminal := false
  depth := 0
  nextPeer := []
  createBody := []
  next := none
  extendSince := none
  pending := []
  extensions := 0
  opened := []
  closedLinks := []
  sent := []

namespace Circuit

def close (c : Circuit) : Circuit :=
  if c.closed then c
  else { c with closed := true, closedLinks := c.next.toList ++ c.closedLinks }

/-- `abandon_extension`: the circuit stays usable at this hop. -/
def abandonExtension (reason : CircuitReason) (c : Circuit) : Circuit :=
  if c.closed ∨ c.phase ≠ .extending then c
  else
    { c with
      extendSince := none
      createBody := []
      next := none
      closedLinks := c.next.toList ++ c.closedLinks
      phase := .open
      sent := .extendFailed reason :: c.sent }

/-- `extend`, on the decoded request. -/
def extend (setting : Setting) (now : Nat) (request : Result ExtendView) (c : Circuit) : Circuit :=
  match request with
  | .error _ => c.close
  | .ok view =>
    if c.phase ≠ .open ∨ c.terminal ∨ maxHops ≤ c.depth then c.close
    else if view.nextIdentity = setting.self ∨
        (setting.fromPeer ∧ view.nextIdentity = setting.predecessor) then
      { c with sent := .extendFailed .refused :: c.sent }
    else
      { c with
        phase := .extending
        extendSince := some now
        nextPeer := hexLower view.nextIdentity
        createBody := view.clientHandshake
        extensions := c.extensions + 1
        pending := c.pending ++ [.opening (hexLower view.nextIdentity) (c.extensions + 1)] }

/-- `on_next_open`: the open for a peer ended, with a link or a failure. -/
def onNextOpen (peer : Bytes) (extension : Nat) (result : Option OpenFailure) (c : Circuit) :
    Circuit :=
  let link : Link := ⟨peer, extension⟩
  if c.closed ∨ c.phase ≠ .extending then
    match result with
    | none => { c with opened := link :: c.opened, closedLinks := link :: c.closedLinks }
    | some _ => c
  else
    match result with
    | some failure => c.abandonExtension (extendReason failure)
    | none =>
      { c with
        next := some link
        opened := link :: c.opened
        pending := c.pending ++ [.creating link] }

/-- The end of the write of CREATE.  `read_created` reads whatever link the
circuit then has. -/
def onCreateWritten (ok : Bool) (c : Circuit) : Circuit :=
  if c.closed ∨ c.phase ≠ .extending then c
  else if ok then
    match c.next with
    | some link => { c with pending := c.pending ++ [.awaiting link] }
    | none => c
  else c.abandonExtension .unreachable

/-- `on_created`, on a record of a link. -/
def onCreated (link : Link) (reply : CreatedReply) (c : Circuit) : Circuit :=
  if c.closed ∨ c.phase ≠ .extending then c
  else
    match reply with
    | .failed => c.abandonExtension .unreachable
    | .notCreated => c.abandonExtension .protocol
    | .created body =>
      { c with
        extendSince := none
        createBody := []
        phase := .extended
        sent := .extended link body :: c.sent }

/-- The part of `sweep` that ends a hung extension. -/
def sweep (setting : Setting) (now : Nat) (c : Circuit) : Circuit :=
  match c.extendSince with
  | some since => if since + setting.extendTimeout < now then c.abandonExtension .timeout else c
  | none => c

/-- `next_ended`. -/
def nextEnded (c : Circuit) : Circuit :=
  if c.closed ∨ c.closing then c
  else { c with closing := true, sent := .circuitFailed .unreachable :: c.sent }

/-- BEGIN, as far as extensions depend on it. -/
def begin (c : Circuit) : Circuit :=
  if c.phase ≠ .open then c.close else { c with terminal := true }

/-- A CREATE that was answered. -/
def create (depth : Nat) (c : Circuit) : Circuit :=
  if c.phase ≠ .awaitCreate then c.close else { c with phase := .open, depth := depth }

end Circuit

/-- How an operation ends. -/
inductive Ending where
  | opened (result : Option OpenFailure)
  | written (ok : Bool)
  | read (reply : CreatedReply)
deriving DecidableEq, Repr

inductive Event where
  | create (depth : Nat)
  | extend (now : Nat) (request : Result ExtendView)
  | begin
  | complete (index : Nat) (ending : Ending)
  | sweep (now : Nat)
  | nextEnded
  | close
deriving DecidableEq, Repr

/-- The callback of an operation, on an ending of its kind. -/
def Circuit.onEnding (c : Circuit) : Op → Ending → Option Circuit
  | .opening peer extension, .opened result => some (c.onNextOpen peer extension result)
  | .creating _, .written ok => some (c.onCreateWritten ok)
  | .awaiting link, .read reply => some (c.onCreated link reply)
  | _, _ => none

/-- One event.  A circuit that is closed or closing takes no more cells. -/
def step (setting : Setting) (c : Circuit) : Event → Option Circuit
  | .create depth => if c.closed ∨ c.closing then none else some (c.create depth)
  | .extend now request =>
    if c.closed ∨ c.closing then none else some (c.extend setting now request)
  | .begin => if c.closed ∨ c.closing then none else some c.begin
  | .complete index ending =>
    c.pending[index]?.bind fun op =>
      { c with pending := c.pending.eraseIdx index }.onEnding op ending
  | .sweep now => some (c.sweep setting now)
  | .nextEnded => some c.nextEnded
  | .close => some c.close

/-- No EXTEND comes while an operation of an earlier extension is outstanding. -/
def patient (c : Circuit) : Event → Bool
  | .extend _ _ => c.pending.isEmpty
  | _ => true

/-- What the operations of the extensions are doing, and which link is used. -/
inductive Progress (c : Circuit) : Prop where
  /-- No extension: at most one operation of the last, abandoned one is left. -/
  | idle (phase : c.phase = .awaitCreate ∨ c.phase = .open) (next : c.next = none)
    (pending : c.pending.length ≤ 1)
  | opening (phase : c.phase = .extending) (next : c.next = none)
    (pending : c.pending = [.opening c.nextPeer c.extensions])
  | creating (phase : c.phase = .extending) (next : c.next = some ⟨c.nextPeer, c.extensions⟩)
    (pending : c.pending = [.creating ⟨c.nextPeer, c.extensions⟩] ∨
      c.pending = [.awaiting ⟨c.nextPeer, c.extensions⟩])
  | extended (phase : c.phase = .extended) (next : c.next = some ⟨c.nextPeer, c.extensions⟩)
    (pending : c.pending = [])
    (sent : ∃ body, .extended ⟨c.nextPeer, c.extensions⟩ body ∈ c.sent)

/-- The links of a circuit: each one opened is closed or the one in use. -/
structure Isolated (c : Circuit) : Prop where
  progress : c.closed = false → Progress c
  few : c.pending.length ≤ 1
  older : ∀ op ∈ c.pending, op.extension = c.extensions
  links : ∀ link ∈ c.opened, link ∈ c.closedLinks ∨ (c.closed = false ∧ c.next = some link)
  replies : ∀ source body, .extended source body ∈ c.sent →
    c.phase = .extended ∧ source = ⟨c.nextPeer, c.extensions⟩

section

variable {setting : Setting} {c c' : Circuit}

namespace Isolated

theorem start : Isolated Circuit.start :=
  ⟨fun _ => .idle (.inl rfl) rfl (Nat.zero_le _), Nat.zero_le _, nofun, nofun, nofun⟩

section

variable (h : Isolated c)
include h

theorem close : Isolated c.close := by
  unfold Circuit.close
  split
  · exact h
  refine ⟨nofun, h.few, h.older, fun link hlink => .inl ?_, h.replies⟩
  rcases h.links link hlink with hclosed | ⟨-, hnext⟩
  · exact mem_append_right _ hclosed
  · exact mem_append_left _ (by simp [hnext])

/-- A circuit whose variables outside the extension change. -/
theorem frame (hclosed : c'.closed = c.closed) (hphase : c'.phase = c.phase)
    (hpeer : c'.nextPeer = c.nextPeer) (hnext : c'.next = c.next) (hpending : c'.pending = c.pending)
    (hextensions : c'.extensions = c.extensions) (hopened : c'.opened = c.opened)
    (hlinks : c'.closedLinks = c.closedLinks) (hsent : ∀ report ∈ c.sent, report ∈ c'.sent)
    (hnew : ∀ source body, .extended source body ∈ c'.sent → .extended source body ∈ c.sent) :
    Isolated c' := by
  refine ⟨fun hopen => ?_, hpending ▸ h.few, ?_, ?_, ?_⟩
  · rcases h.progress (hclosed ▸ hopen) with ⟨p, n, q⟩ | ⟨p, n, q⟩ | ⟨p, n, q⟩ | ⟨p, n, q, body, hb⟩
    · exact .idle (hphase ▸ p) (hnext ▸ n) (hpending ▸ q)
    · exact .opening (hphase ▸ p) (hnext ▸ n) (by rw [hpending, hpeer, hextensions, q])
    · refine .creating (hphase ▸ p) (by rw [hnext, hpeer, hextensions, n]) ?_
      rw [hpending, hpeer, hextensions]
      exact q
    refine .extended (hphase ▸ p) (by rw [hnext, hpeer, hextensions, n]) (hpending ▸ q) ⟨body, ?_⟩
    rw [hpeer, hextensions]
    exact hsent _ hb
  · rw [hpending, hextensions]
    exact h.older
  · rw [hopened, hlinks, hclosed, hnext]
    exact h.links
  · intro source body hmem
    rw [hphase, hpeer, hextensions]
    exact h.replies source body (hnew source body hmem)

omit h in
/-- An abandoned extension closes the link it had. -/
theorem abandoned (hactive : c.closed = false ∧ c.phase = .extending) (hfew : c.pending.length ≤ 1)
    (holder : ∀ op ∈ c.pending, op.extension = c.extensions)
    (hlinks : ∀ link ∈ c.opened, link ∈ c.closedLinks ∨ (c.closed = false ∧ c.next = some link))
    (hreplies : ∀ source body, .extended source body ∈ c.sent → c.phase = .extended)
    (reason : CircuitReason) : Isolated (c.abandonExtension reason) := by
  unfold Circuit.abandonExtension
  rw [if_neg (by simp [hactive])]
  refine ⟨fun _ => .idle (.inr rfl) rfl hfew, hfew, holder, fun link hlink => .inl ?_, ?_⟩
  · rcases hlinks link hlink with hclosed | ⟨-, hnext⟩
    · exact mem_append_right _ hclosed
    · exact mem_append_left _ (by simp [hnext])
  intro source body hmem
  simp only [mem_cons, reduceCtorEq, false_or] at hmem
  cases hactive.2.symm.trans (hreplies source body hmem)

theorem abandonedLast (hactive : c.closed = false ∧ c.phase = .extending) (reason : CircuitReason) :
    Isolated (Circuit.abandonExtension reason { c with pending := [] }) :=
  abandoned (c := { c with pending := [] }) hactive (Nat.zero_le _) nofun h.links
    (fun source body hmem => (h.replies source body hmem).1) reason

theorem abandon (reason : CircuitReason) : Isolated (c.abandonExtension reason) := by
  by_cases hactive : c.closed = false ∧ c.phase = .extending
  · exact abandoned hactive h.few h.older h.links
      (fun source body hmem => (h.replies source body hmem).1) reason
  unfold Circuit.abandonExtension
  rw [if_pos (by cases hclosed : c.closed <;> simp_all)]
  exact h

theorem extend (hopen : c.closed = false) (hpatient : c.pending = []) (now : Nat)
    (request : Result ExtendView) : Isolated (c.extend setting now request) := by
  unfold Circuit.extend
  split
  · exact h.close
  split
  · exact h.close
  rename_i hphase
  split
  · exact h.frame rfl rfl rfl rfl rfl rfl rfl rfl (fun _ => mem_cons_of_mem _)
      fun _ _ hmem => by simpa using hmem
  -- Only a circuit without an extension accepts one, so it has no link.
  have hnext : c.next = none := by
    rcases h.progress hopen with ⟨-, n, -⟩ | ⟨p, -, -⟩ | ⟨p, -, -⟩ | ⟨p, -, -, -⟩
    · exact n
    · simp [p] at hphase
    · simp [p] at hphase
    · simp [p] at hphase
  refine ⟨fun _ => .opening rfl hnext ?_, ?_, ?_, ?_, ?_⟩
  · simp [hpatient]
  · simp [hpatient]
  · simp [hpatient, Op.extension]
  · intro link hlink
    rcases h.links link hlink with hclosed | ⟨-, hused⟩
    · exact .inl hclosed
    · cases hnext.symm.trans hused
  · intro source body hmem
    simp [(h.replies source body hmem).1] at hphase

theorem sweep (now : Nat) : Isolated (c.sweep setting now) := by
  unfold Circuit.sweep
  split
  · split
    · exact h.abandon _
    · exact h
  · exact h

theorem nextEnded : Isolated c.nextEnded := by
  unfold Circuit.nextEnded
  split
  · exact h
  exact h.frame rfl rfl rfl rfl rfl rfl rfl rfl (fun _ => mem_cons_of_mem _)
    fun _ _ hmem => by simpa using hmem

theorem begin : Isolated c.begin := by
  unfold Circuit.begin
  split
  · exact h.close
  · exact h.frame rfl rfl rfl rfl rfl rfl rfl rfl (fun _ => id) fun _ _ => id

theorem create (hopen : c.closed = false) (depth : Nat) : Isolated (c.create depth) := by
  unfold Circuit.create
  split
  · exact h.close
  rename_i hphase
  have hidle : c.next = none ∧ c.pending.length ≤ 1 := by
    rcases h.progress hopen with ⟨-, n, q⟩ | ⟨p, -, -⟩ | ⟨p, -, -⟩ | ⟨p, -, -, -⟩
    · exact ⟨n, q⟩
    · simp [p] at hphase
    · simp [p] at hphase
    · simp [p] at hphase
  refine ⟨fun _ => .idle (.inr rfl) hidle.1 hidle.2, h.few, h.older, h.links, ?_⟩
  intro source body hmem
  simp [(h.replies source body hmem).1] at hphase

/-- An operation that completes was the only one. -/
theorem eraseIdx_pending {index : Nat} {op : Op} (hop : c.pending[index]? = some op) :
    c.pending = [op] ∧ c.pending.eraseIdx index = [] := by
  have hfew := h.few
  match hpending : c.pending, index with
  | [], _ => simp [hpending] at hop
  | [only], 0 =>
    rw [hpending] at hop
    simpa using hop
  | [only], index + 1 => simp [hpending] at hop
  | _ :: _ :: _, _ => simp [hpending] at hfew

/-- What is left outstanding by an extension that is over may end. -/
theorem dormant (hdormant : c.closed = true ∨ c.phase ≠ .extending) :
    Isolated { c with pending := [] } := by
  refine ⟨fun hopen => ?_, Nat.zero_le _, nofun, h.links, h.replies⟩
  have hphase : c.phase ≠ .extending := hdormant.resolve_left (by rw [hopen]; decide)
  rcases h.progress hopen with ⟨p, n, -⟩ | ⟨p, -, -⟩ | ⟨p, -, -⟩ | ⟨p, n, -, s⟩
  · exact .idle p n (Nat.zero_le _)
  · exact absurd p hphase
  · exact absurd p hphase
  · exact .extended p n rfl s

theorem onNextOpen {peer : Bytes} {extension : Nat}
    (hop : c.pending = [.opening peer extension]) (result : Option OpenFailure) :
    Isolated (Circuit.onNextOpen peer extension result { c with pending := [] }) := by
  unfold Circuit.onNextOpen
  dsimp only
  split
  · rename_i hdormant
    have hleft := h.dormant (by simpa using hdormant)
    split
    · refine ⟨fun hopen => ?_, hleft.few, hleft.older, fun link hlink => ?_, hleft.replies⟩
      · rcases hleft.progress hopen with ⟨p, n, q⟩ | ⟨p, n, q⟩ | ⟨p, n, q⟩ | ⟨p, n, q, s⟩
        · exact .idle p n q
        · exact .opening p n q
        · exact .creating p n q
        · exact .extended p n q s
      -- The link that came too late is closed at once.
      rcases mem_cons.mp hlink with rfl | hmem
      · exact .inl mem_cons_self
      · exact (hleft.links link hmem).imp_left (mem_cons_of_mem _)
    · exact hleft
  rename_i hactive
  simp only [not_or, Bool.not_eq_true, Decidable.not_not] at hactive
  split
  · exact h.abandonedLast hactive _
  rcases h.progress hactive.1 with ⟨p, -, -⟩ | ⟨p, n, q⟩ | ⟨p, -, q | q⟩ | ⟨p, -, -, -⟩
  · rcases p with p | p <;> cases hactive.2.symm.trans p
  · obtain ⟨rfl, rfl⟩ : peer = c.nextPeer ∧ extension = c.extensions := by
      simpa [hop] using q
    refine ⟨fun _ => .creating hactive.2 rfl (.inl rfl), Nat.le_refl _, ?_,
      fun link hlink => ?_, h.replies⟩
    · simp [Op.extension]
    rcases mem_cons.mp hlink with rfl | hmem
    · exact .inr ⟨hactive.1, rfl⟩
    refine .inl ((h.links link hmem).resolve_right ?_)
    rintro ⟨-, hused⟩
    cases n.symm.trans hused
  · cases hop.symm.trans q
  · cases hop.symm.trans q
  · cases hactive.2.symm.trans p

theorem onCreateWritten {link : Link} (hop : c.pending = [.creating link])
    (ok : Bool) : Isolated (Circuit.onCreateWritten ok { c with pending := [] }) := by
  unfold Circuit.onCreateWritten
  split
  · rename_i hdormant
    exact h.dormant (by simpa using hdormant)
  rename_i hactive
  simp only [not_or, Bool.not_eq_true, Decidable.not_not] at hactive
  split
  · rcases h.progress hactive.1 with ⟨p, -, -⟩ | ⟨-, -, q⟩ | ⟨p, n, -⟩ | ⟨p, -, -, -⟩
    · rcases p with p | p <;> cases hactive.2.symm.trans p
    · cases hop.symm.trans q
    · split
      · rename_i used hused
        obtain rfl : used = ⟨c.nextPeer, c.extensions⟩ := some.inj (hused.symm.trans n)
        refine ⟨fun _ => .creating p n (.inr rfl), Nat.le_refl _, ?_, h.links, h.replies⟩
        simp [Op.extension]
      rename_i hunused
      cases n.symm.trans hunused
    · cases hactive.2.symm.trans p
  · exact h.abandonedLast hactive _

theorem onCreated {link : Link} (hop : c.pending = [.awaiting link])
    (reply : CreatedReply) : Isolated (Circuit.onCreated link reply { c with pending := [] }) := by
  unfold Circuit.onCreated
  split
  · rename_i hdormant
    exact h.dormant (by simpa using hdormant)
  rename_i hactive
  simp only [not_or, Bool.not_eq_true, Decidable.not_not] at hactive
  split
  · exact h.abandonedLast hactive _
  · exact h.abandonedLast hactive _
  rename_i body
  rcases h.progress hactive.1 with ⟨p, -, -⟩ | ⟨-, -, q⟩ | ⟨-, n, q | q⟩ | ⟨p, -, -, -⟩
  · rcases p with p | p <;> cases hactive.2.symm.trans p
  · cases hop.symm.trans q
  · cases hop.symm.trans q
  · obtain rfl : link = ⟨c.nextPeer, c.extensions⟩ := by simpa [hop] using q
    refine ⟨fun _ => .extended rfl n rfl ⟨body, mem_cons_self⟩, Nat.zero_le _, nofun,
      h.links, fun source other hmem => ⟨rfl, ?_⟩⟩
    simp only [mem_cons, Report.extended.injEq] at hmem
    rcases hmem with ⟨rfl, -⟩ | hmem
    · rfl
    · exact (h.replies source other hmem).2
  · cases hactive.2.symm.trans p

/-- One event keeps the extensions of a circuit apart, if no EXTEND comes while
an operation of an earlier one is outstanding. -/
theorem step {event : Event} (hpatient : patient c event = true)
    (hstep : step setting c event = some c') : Isolated c' := by
  cases event with
  | create depth =>
    simp only [CircuitNode.step] at hstep
    split at hstep
    · cases hstep
    rename_i hopen
    cases hstep
    exact h.create (by simp_all) depth
  | extend now request =>
    simp only [CircuitNode.step] at hstep
    split at hstep
    · cases hstep
    rename_i hopen
    cases hstep
    exact h.extend (by simp_all) (List.isEmpty_iff.mp hpatient) now request
  | begin =>
    simp only [CircuitNode.step] at hstep
    split at hstep
    · cases hstep
    cases hstep
    exact h.begin
  | complete index ending =>
    obtain ⟨op, hop, hending⟩ := bind_eq_some_iff.mp hstep
    obtain ⟨honly, herased⟩ := h.eraseIdx_pending hop
    rw [herased] at hending
    cases op with
    | opening =>
      cases ending with
      | opened result =>
        cases hending
        exact h.onNextOpen honly result
      | _ => cases hending
    | creating =>
      cases ending with
      | written ok =>
        cases hending
        exact h.onCreateWritten honly ok
      | _ => cases hending
    | awaiting =>
      cases ending with
      | read reply =>
        cases hending
        exact h.onCreated honly reply
      | _ => cases hending
  | sweep now =>
    cases hstep
    exact h.sweep now
  | nextEnded =>
    cases hstep
    exact h.nextEnded
  | close =>
    cases hstep
    exact h.close

end

theorem reached (h : Reaches (CircuitNode.step setting) (fun c event => patient c event = true)
    Circuit.start c) : Isolated c :=
  h.invariant start fun _ _ _ _ hbefore hpatient hstep => hbefore.step hpatient hstep

end Isolated

/-- The callback of an operation whose extension is over leaves the circuit's
variables as they were. -/
theorem onEnding_dormant {op : Op} {ending : Ending} (hphase : c.phase ≠ .extending)
    (h : c.onEnding op ending = some c') :
    c' = { c with opened := c'.opened, closedLinks := c'.closedLinks } := by
  cases op with
  | opening =>
    cases ending with
    | opened result =>
      cases h
      cases result <;> simp [Circuit.onNextOpen, hphase]
    | _ => cases h
  | creating =>
    cases ending with
    | written =>
      cases h
      simp [Circuit.onCreateWritten, hphase]
    | _ => cases h
  | awaiting =>
    cases ending with
    | read =>
      cases h
      simp [Circuit.onCreated, hphase]
    | _ => cases h

/-- In every run in which no EXTEND comes while an operation of an earlier
extension is outstanding: an operation of an abandoned extension changes none of
the circuit's variables, an extended circuit uses the link opened for the peer of
the accepted EXTEND and its EXTENDED came from there, and every other link that
was opened is closed. -/
theorem stale_extension_isolated
    (h : Reaches (step setting) (fun c event => patient c event = true) Circuit.start c) :
    (∀ index op ending c', c.pending[index]? = some op →
      (op.extension ≠ c.extensions ∨ c.phase ≠ .extending) →
      step setting c (.complete index ending) = some c' →
      c' = { c with
        pending := c'.pending, opened := c'.opened, closedLinks := c'.closedLinks }) ∧
    (c.closed = false → c.phase = .extended →
      c.next = some ⟨c.nextPeer, c.extensions⟩ ∧
        (∃ body, .extended ⟨c.nextPeer, c.extensions⟩ body ∈ c.sent) ∧
        ∀ source body, .extended source body ∈ c.sent → source = ⟨c.nextPeer, c.extensions⟩) ∧
    ∀ link ∈ c.opened, link ∈ c.closedLinks ∨
      (c.closed = false ∧ c.next = some link ∧ link = ⟨c.nextPeer, c.extensions⟩ ∧
        (c.phase = .extending ∨ c.phase = .extended)) := by
  have hisolated := Isolated.reached h
  refine ⟨?_, ?_, ?_⟩
  · intro index op ending c' hop hstale hstep
    have hphase : c.phase ≠ .extending :=
      hstale.resolve_left fun hne => hne (hisolated.older op (mem_of_getElem? hop))
    rw [step, hop, bind_some] at hstep
    have hsame := onEnding_dormant (c := { c with pending := c.pending.eraseIdx index }) hphase hstep
    rw [hsame]
  · intro hopen hphase
    rcases hisolated.progress hopen with ⟨p, -, -⟩ | ⟨p, -, -⟩ | ⟨p, -, -⟩ | ⟨-, n, -, s⟩
    · rcases p with p | p <;> cases hphase.symm.trans p
    · cases hphase.symm.trans p
    · cases hphase.symm.trans p
    · exact ⟨n, s, fun source body hmem => (hisolated.replies source body hmem).2⟩
  intro link hlink
  refine (hisolated.links link hlink).imp_right ?_
  rintro ⟨hopen, hused⟩
  rcases hisolated.progress hopen with ⟨-, n, -⟩ | ⟨-, n, -⟩ | ⟨p, n, -⟩ | ⟨p, n, -, -⟩
  · cases hused.symm.trans n
  · cases hused.symm.trans n
  · exact ⟨hopen, hused, some.inj (hused.symm.trans n), .inl p⟩
  · exact ⟨hopen, hused, some.inj (hused.symm.trans n), .inr p⟩

end

/-- A node that has heard of two peers. -/
def sampleSetting : Setting where
  self := [1]
  fromPeer := false
  predecessor := []
  extendTimeout := 10

/-- The extension to the first peer is abandoned, its open ends, and then the
circuit is extended to the second. -/
def patientEvents : List Event :=
  [.create 1, .extend 0 (.ok ⟨[2], [20]⟩), .sweep 20, .complete 0 (.opened none),
    .extend 21 (.ok ⟨[3], [30]⟩), .complete 0 (.opened none), .complete 0 (.written true),
    .complete 0 (.read (.created [9]))]

theorem stale_extension_isolated_sample :
    ∃ c : Circuit, c.phase = .extended ∧ ⟨hexLower [2], 1⟩ ∈ c.closedLinks ∧
      c.next = some ⟨hexLower [3], 2⟩ := by
  cases hrun : runChecked (step sampleSetting) patient Circuit.start patientEvents with
  | none => exact absurd hrun (by decide)
  | some c =>
    have hreach : Reaches (step sampleSetting) (fun c event => patient c event = true)
        Circuit.start c := Reaches.of_runChecked (fun _ _ hpatient => hpatient) hrun
    obtain rfl := some.inj (hrun.symm.trans (by rfl : _ = some _))
    obtain ⟨-, hextended, -⟩ := stale_extension_isolated hreach
    exact ⟨_, rfl, by decide, (hextended rfl rfl).1⟩

/-- The extension to the first peer hangs and is abandoned.  The client extends
to the second peer, and then the first open ends with a link, which is used. -/
def lateOpenEvents : List Event :=
  [.create 1, .extend 0 (.ok ⟨[2], [20]⟩), .sweep 20, .extend 21 (.ok ⟨[3], [30]⟩),
    .complete 0 (.opened none), .complete 1 (.written true), .complete 1 (.read (.created [9]))]

/-- The circuit then is extended, for the second peer, over the link to the
first, and told the client so. -/
theorem late_open_hijacks_extension :
    ∃ c, Reaches (step sampleSetting) (fun _ _ => True) Circuit.start c ∧
      c.closed = false ∧ c.phase = .extended ∧ c.nextPeer = hexLower [3] ∧
      c.next = some ⟨hexLower [2], 1⟩ ∧ c.sent.head? = some (.extended ⟨hexLower [2], 1⟩ [9]) := by
  cases hrun : runChecked (step sampleSetting) (fun _ _ => true) Circuit.start lateOpenEvents with
  | none => exact absurd hrun (by decide)
  | some c =>
    refine ⟨c, Reaches.of_runChecked (fun _ _ _ => trivial) hrun, ?_⟩
    obtain rfl := some.inj (hrun.symm.trans (by rfl : _ = some _))
    decide

end Yume.CircuitNode
