/-
Circuits through several nodes.  A node knows the peer in front of it, the depth
its CREATE carries and the identities it is asked to extend to.  No party knows
the whole path of a circuit; it is recorded here.
-/
import Yume.CircuitNode.Extension

namespace Yume.CircuitNode

open Yume.Lib Yume.Circuit List

/-- Which identities a node takes for cluster peers, the peers in its cluster's
list, and those that it has an active session with. -/
structure Network where
  isPeer : Bytes → Bytes → Bool
  links : Bytes → List Bytes
  active : Bytes → Bytes → Bool
  extendTimeout : Nat

/-- `open_next`, as far as the node decides it. -/
def Network.openNext (net : Network) (self peer : Bytes) : Option OpenFailure :=
  if peer ∉ net.links self then some .notFound
  else if net.active self peer then none
  else some .other

/-- A circuit at one node, the nodes up to this one, and the depth in a CREATE
that is on its way to it. -/
structure Hop where
  setting : Setting
  circuit : Circuit
  path : List Bytes
  arriving : Option Nat

/-- A circuit at `node` that `sender` has opened and sends CREATE on. -/
def Network.hop (net : Network) (sender node : Bytes) (path : List Bytes) (depth : Nat) : Hop where
  setting := ⟨node, net.isPeer node sender, sender, net.extendTimeout⟩
  circuit := .start
  path := path ++ [node]
  arriving := some depth

/-- The depths that `DecodeCreate` and `handle_create` take. -/
def depthFits (setting : Setting) (depth : Nat) : Bool :=
  decide (1 ≤ depth ∧ depth ≤ maxHops) && if setting.fromPeer then 2 ≤ depth else depth == 1

/-- `handle_create`, when the handshake is `answered`. -/
def Circuit.handleCreate (setting : Setting) (depth : Nat) (answered : Bool) (c : Circuit) :
    Option Circuit :=
  step setting c (if depthFits setting depth && answered then .create depth else .close)

/-- An event ends the opening of a link with success. -/
def Circuit.Opens (c : Circuit) (event : Event) (link : Link) : Prop :=
  ∃ index, event = .complete index (.opened none) ∧
    c.pending[index]? = some (.opening link.peer link.extension)

/-- A circuit writes CREATE to a link or has it as its next. -/
def Circuit.Holds (c : Circuit) (link : Link) : Prop :=
  .creating link ∈ c.pending ∨ c.next = some link

/-- A circuit asked for a link to be opened or writes CREATE to it. -/
def Circuit.Seeks (c : Circuit) (link : Link) : Prop :=
  .opening link.peer link.extension ∈ c.pending ∨ .creating link ∈ c.pending

/-- The circuits at nodes that can occur.  A client sends CREATE with depth one
and then what it likes; a node opens links as `open_next` lets it, and writes
CREATE to them with its own depth and one more. -/
inductive Occurs (net : Network) : Hop → Prop where
  | connect (client node : Bytes) : Occurs net (net.hop client node [] 1)
  | create {hop c depth answered} : Occurs net hop → hop.arriving = some depth →
    hop.circuit.handleCreate hop.setting depth answered = some c →
    Occurs net { hop with circuit := c, arriving := none }
  | event {hop c event} : Occurs net hop → (∀ depth, event ≠ .create depth) →
    (∀ link, hop.circuit.Opens event link → net.openNext hop.setting.self link.peer = none) →
    step hop.setting hop.circuit event = some c → Occurs net { hop with circuit := c }
  | relay {hop next extension} : Occurs net hop →
    .creating ⟨hexLower next, extension⟩ ∈ hop.circuit.pending →
    Occurs net (net.hop hop.setting.self next hop.path (hop.circuit.depth + 1))

theorem Network.mem_links {net : Network} {self peer : Bytes} (h : net.openNext self peer = none) :
    peer ∈ net.links self := by
  unfold Network.openNext at h
  by_contra hout
  simp [hout] at h

/-- An identity is spelled in one way. -/
theorem hexLower_inj {a b : Bytes} (h : hexLower a = hexLower b) : a = b := by
  have hlength := congrArg length h
  rw [hexLower_length, hexLower_length] at hlength
  have hdecoded := decodeLowerHex_hexLower a
  rw [h, show a.length = b.length by omega, decodeLowerHex_hexLower b] at hdecoded
  exact (Option.some.inj hdecoded).symm

/-- What the checks of the nodes make true of the path that they do not see. -/
structure Hop.Sound (net : Network) (hop : Hop) : Prop where
  nodup : hop.path.Nodup
  length : hop.path.length ≤ maxHops
  ends : ∃ front, hop.path = front ++ [hop.setting.self] ∧
    ∀ last ∈ front.getLast?, last = hop.setting.predecessor
  arriving : ∀ depth ∈ hop.arriving, depth = hop.path.length
  depth : hop.circuit.phase ≠ .awaitCreate → hop.circuit.depth = hop.path.length ∧
    (hop.path.length = 1 ∨ hop.setting.fromPeer = true)
  asked : ∀ next extension, hop.circuit.Seeks ⟨hexLower next, extension⟩ →
    next ∉ hop.path ∧ hop.path.length < maxHops ∧ hop.circuit.phase ≠ .awaitCreate
  linked : ∀ link, hop.circuit.Holds link → link.peer ∈ net.links hop.setting.self

section Step

variable {net : Network} {setting : Setting} {c c' : Circuit} {hop : Hop} {event : Event}

/-- Beside CREATE and EXTEND, an event asks for no node and keeps the depth, and a
link it adds is one whose opening succeeded. -/
theorem step_quiet (hstep : step setting c event = some c')
    (hcreate : ∀ depth, event ≠ .create depth)
    (hextend : ∀ now request, event ≠ .extend now request) :
    c'.depth = c.depth ∧ (c'.phase = .awaitCreate ↔ c.phase = .awaitCreate) ∧
      (∀ link, c'.Seeks link → c.Seeks link) ∧
      ∀ link, c'.Holds link → c.Holds link ∨ c.Opens event link := by
  unfold Circuit.Seeks Circuit.Holds Circuit.Opens
  cases event with
  | create depth => exact absurd rfl (hcreate depth)
  | extend now request => exact absurd rfl (hextend now request)
  | complete index ending =>
    obtain ⟨op, hop, hend⟩ := Option.bind_eq_some_iff.mp hstep
    have hmem := mem_of_getElem? hop
    have herase : ∀ op ∈ c.pending.eraseIdx index, op ∈ c.pending :=
      fun _ => mem_of_mem_eraseIdx
    cases op <;> cases ending <;> cases hend
    all_goals
      simp only [Circuit.onNextOpen, Circuit.onCreateWritten, Circuit.onCreated,
        Circuit.abandonExtension]
      grind
  | _ =>
    simp only [step, Circuit.begin, Circuit.close, Circuit.sweep, Circuit.abandonExtension,
      Circuit.nextEnded] at hstep
    grind

/-- An accepted EXTEND names a node that is new to the path: before a node that
still may extend there is its predecessor at most. -/
theorem Hop.Sound.extend (h : hop.Sound net) {now : Nat} {request : Result ExtendView}
    (hstep : step hop.setting hop.circuit (.extend now request) = some c') :
    Hop.Sound net { hop with circuit := c' } := by
  obtain ⟨hnodup, hlength, hends, harriving, hdepth, hasked, hlinked⟩ := h
  simp only [step, Circuit.extend, Circuit.close] at hstep
  have hwait : c'.phase = .awaitCreate → hop.circuit.phase = .awaitCreate := by grind
  refine ⟨hnodup, hlength, hends, harriving, by grind, fun next extension hmem => ?_,
    fun link hheld => hlinked link ?_⟩
  · by_cases hold : hop.circuit.Seeks ⟨hexLower next, extension⟩
    · obtain ⟨hnew, hshort, hphase⟩ := hasked next extension hold
      exact ⟨hnew, hshort, mt hwait hphase⟩
    clear hasked hlinked
    simp only [Circuit.Seeks] at hold hmem
    have hnew : hop.circuit.phase = .open ∧ hop.circuit.depth < maxHops ∧
        next ≠ hop.setting.self ∧
        (hop.setting.fromPeer = true → next ≠ hop.setting.predecessor) := by
      grind [hexLower_inj]
    obtain ⟨hphase, hshort, hself, hprevious⟩ := hnew
    obtain ⟨hsame, hpeer⟩ := hdepth (by simp [hphase])
    obtain ⟨front, hpath, hlast⟩ := hends
    rw [hsame] at hshort
    refine ⟨?_, hshort, fun hagain => by cases hphase.symm.trans (hwait hagain)⟩
    rw [hpath, length_append, length_singleton] at hpeer hshort
    rw [hpath]
    rcases front with _ | ⟨last, _ | _⟩
    · simpa using hself
    · obtain rfl := hlast last rfl
      simp [hself, hprevious (by simpa using hpeer)]
    simp only [length_cons, maxHops] at hshort
    omega
  · unfold Circuit.Holds at hheld ⊢
    grind

theorem Hop.Sound.advance (h : hop.Sound net) (hcreate : ∀ depth, event ≠ .create depth)
    (hopens : ∀ link, hop.circuit.Opens event link → net.openNext hop.setting.self link.peer = none)
    (hstep : step hop.setting hop.circuit event = some c') :
    Hop.Sound net { hop with circuit := c' } := by
  by_cases hextend : ∃ now request, event = .extend now request
  · obtain ⟨now, request, rfl⟩ := hextend
    exact h.extend hstep
  obtain ⟨hdepth, hphase, hseeks, hholds⟩ := step_quiet hstep hcreate fun now request heq =>
    hextend ⟨now, request, heq⟩
  refine { h with
    depth := fun hopen => ?_
    asked := fun next extension hmem => ?_
    linked := fun link hheld => ?_ }
  · rw [hdepth]
    exact h.depth fun hwait => hopen (hphase.mpr hwait)
  · obtain ⟨hnew, hshort, hopen⟩ := h.asked next extension (hseeks _ hmem)
    exact ⟨hnew, hshort, mt hphase.mp hopen⟩
  · rcases hholds link hheld with hold | hnew
    · exact h.linked link hold
    · exact net.mem_links (hopens link hnew)

/-- The depth that a node takes from CREATE is its place in the path. -/
theorem Hop.Sound.create (h : hop.Sound net) {depth : Nat} (hdepth : hop.arriving = some depth)
    {answered : Bool} (hstep : hop.circuit.handleCreate hop.setting depth answered = some c') :
    Hop.Sound net { hop with circuit := c', arriving := none } := by
  have hplace := h.arriving depth hdepth
  unfold Circuit.handleCreate at hstep
  split at hstep
  · rename_i hfits
    simp only [step, Circuit.create, Circuit.close] at hstep
    simp only [depthFits, Bool.and_eq_true] at hfits
    obtain ⟨hnodup, hlength, hends, -, hknown, hasked, hlinked⟩ := h
    constructor <;> grind [Circuit.Seeks, Circuit.Holds]
  · exact { h.advance (by simp) (by simp [Circuit.Opens]) hstep with arriving := by simp }

/-- A relayed CREATE goes to a new node and carries its place. -/
theorem Hop.Sound.relay (h : hop.Sound net) {next : Bytes} {extension : Nat}
    (hwrites : .creating ⟨hexLower next, extension⟩ ∈ hop.circuit.pending) :
    (net.hop hop.setting.self next hop.path (hop.circuit.depth + 1)).Sound net := by
  obtain ⟨hnew, hshort, hopen⟩ := h.asked next extension (.inr hwrites)
  have hdepth := (h.depth hopen).1
  obtain ⟨front, hpath, -⟩ := h.ends
  have hnodup := h.nodup
  unfold Network.hop
  refine ⟨by grind, ?_, ⟨hop.path, rfl, by simp [hpath]⟩, by simp [hdepth], nofun, ?_, ?_⟩
  · rw [length_append]
    exact hshort
  · simp [Circuit.Seeks, Circuit.start]
  · simp [Circuit.Holds, Circuit.start]

end Step

theorem Occurs.sound {net : Network} {hop : Hop} (h : Occurs net hop) : hop.Sound net := by
  induction h with
  | connect =>
    constructor <;> simp [Network.hop, Circuit.start, maxHops, Circuit.Seeks, Circuit.Holds]
  | create _ harriving hstep ih => exact ih.create harriving hstep
  | event _ hcreate hopens hstep ih => exact ih.advance hcreate hopens hstep
  | relay _ hwrites ih => exact ih.relay hwrites

/-- Whatever EXTENDs the clients send: the nodes on the path of a circuit differ
and are not too many, also with the node that it is to be extended to, a node's
depth is its place, and a node writes CREATE to linked peers only and has no other
as its next. -/
theorem circuit_path_integrity {net : Network} {hop : Hop} (h : Occurs net hop) :
    hop.path.Nodup ∧ hop.path.length ≤ maxHops ∧
    (hop.circuit.phase ≠ .awaitCreate → hop.circuit.depth = hop.path.length) ∧
    (∀ next extension, (.opening (hexLower next) extension ∈ hop.circuit.pending ∨
        .creating ⟨hexLower next, extension⟩ ∈ hop.circuit.pending) →
      (hop.path ++ [next]).Nodup ∧ (hop.path ++ [next]).length ≤ maxHops) ∧
    ∀ link, (.creating link ∈ hop.circuit.pending ∨ hop.circuit.next = some link) →
      link.peer ∈ net.links hop.setting.self := by
  obtain ⟨hnodup, hlength, -, -, hdepth, hasked, hlinked⟩ := h.sound
  refine ⟨hnodup, hlength, fun hopen => (hdepth hopen).1, fun next extension hmem => ?_, hlinked⟩
  obtain ⟨hnew, hshort, -⟩ := hasked next extension hmem
  exact ⟨by grind, by simpa using Nat.succ_le_of_lt hshort⟩

/-- A client extends its circuit from node one to node two, whose link node one
has as its next. -/
theorem circuit_path_integrity_two :
    ∃ net hop other, Occurs net hop ∧ Occurs net other ∧ other.path = [[1], [2]] ∧
      other.path.Nodup ∧ ∃ link, hop.circuit.next = some link ∧
        link.peer ∈ net.links hop.setting.self := by
  let net : Network := ⟨fun _ _ => false, fun _ => [hexLower [2]], fun _ _ => true, 10⟩
  have hfirst : Occurs net _ := .connect [] [1]
  have hcreated := @Occurs.create net _ _ 1 true hfirst rfl rfl
  have hasked := @Occurs.event net _ _ (.extend 0 (.ok ⟨[2], []⟩)) hcreated (by simp)
    (by simp [Circuit.Opens]) rfl
  have hopened := @Occurs.event net _ _ (.complete 0 (.opened none)) hasked (by simp) (by
    rintro link ⟨index, hindex, hop⟩
    cases hindex
    rw [← (Op.opening.inj (Option.some.inj hop)).1]
    rfl) rfl
  have hnext := @Occurs.relay net _ [2] 1 hopened (by decide)
  exact ⟨net, _, _, hopened, hnext, rfl, (circuit_path_integrity hnext).1, _, rfl,
    (circuit_path_integrity hopened).2.2.2.2 _ (.inr rfl)⟩

end Yume.CircuitNode
