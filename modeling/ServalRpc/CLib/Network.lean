import Mathlib.Algebra.Ring.Nat
import Mathlib.Data.Multiset.Filter
import ServalRpc.CLib.Run

/-! # Unreliable networks

Parties that share the messages in flight.  A party takes its turn with some of these messages or
with none, and sends others.  The network delivers in any order, loses and duplicates messages, and
the outside adds messages of its own.  A board is a network in which every message stays.
-/

namespace CLib

structure Network (σ μ : Type) where
  parties : σ
  inFlight : Multiset μ

/-- What happens to the network, for the books of a run. -/
inductive NetworkEvent (μ : Type) where
  | turn (received sent : Multiset μ)
  | lost (message : μ)
  | duplicated (message : μ)
  | injected (message : μ)

variable {σ μ : Type}

inductive NetworkStep (turn : σ → Multiset μ → Multiset μ → σ → Prop) (foreign : μ → Prop) :
    Network σ μ → NetworkEvent μ → Network σ μ → Prop where
  | turn {parties next : σ} {received sent rest : Multiset μ} :
      turn parties received sent next →
      NetworkStep turn foreign ⟨parties, received + rest⟩ (.turn received sent)
        ⟨next, rest + sent⟩
  | lose {parties : σ} {rest : Multiset μ} (message : μ) :
      NetworkStep turn foreign ⟨parties, message ::ₘ rest⟩ (.lost message) ⟨parties, rest⟩
  | duplicate {parties : σ} {rest : Multiset μ} (message : μ) :
      NetworkStep turn foreign ⟨parties, message ::ₘ rest⟩ (.duplicated message)
        ⟨parties, message ::ₘ message ::ₘ rest⟩
  | inject {parties : σ} {rest : Multiset μ} {message : μ} :
      foreign message →
      NetworkStep turn foreign ⟨parties, rest⟩ (.injected message) ⟨parties, message ::ₘ rest⟩

abbrev NetworkRun (turn : σ → Multiset μ → Multiset μ → σ → Prop) (foreign : μ → Prop)
    (guard : Network σ μ → NetworkEvent μ → Prop) :=
  GuardedRun (NetworkStep turn foreign) guard

/-! ## Provenance -/

/-- An invariant of the parties, and what it means for a message that they have sent it: a turn
keeps both when the message that it takes is authentic, and nothing that it does makes a message
lose its origin. -/
structure Provenance (turn : σ → Multiset μ → Multiset μ → σ → Prop) (foreign : μ → Prop) where
  sound : σ → Prop
  authentic : σ → μ → Prop
  injected : ∀ parties message, foreign message → authentic parties message
  kept : ∀ {parties received sent next}, turn parties received sent next → sound parties →
    (∀ message ∈ received, authentic parties message) →
    ∀ message, authentic parties message → authentic next message
  sent : ∀ {parties received sent next}, turn parties received sent next → sound parties →
    (∀ message ∈ received, authentic parties message) →
    sound next ∧ ∀ message ∈ sent, authentic next message

namespace Provenance

variable {turn : σ → Multiset μ → Multiset μ → σ → Prop} {foreign : μ → Prop}

def Holds (provenance : Provenance turn foreign) (network : Network σ μ) : Prop :=
  provenance.sound network.parties ∧
    ∀ message ∈ network.inFlight, provenance.authentic network.parties message

theorem of_step (provenance : Provenance turn foreign) {network next : Network σ μ}
    {event : NetworkEvent μ} (holds : provenance.Holds network)
    (step : NetworkStep turn foreign network event next) : provenance.Holds next := by
  obtain ⟨sound, authentic⟩ := holds
  cases step with
  | @turn parties next received sent rest turned =>
    have arrived : ∀ message ∈ received, provenance.authentic parties message :=
      fun message member => authentic message (Multiset.mem_add.mpr (.inl member))
    obtain ⟨sound', sending⟩ := provenance.sent turned sound arrived
    refine ⟨sound', fun message member => ?_⟩
    obtain member | member := Multiset.mem_add.mp member
    · exact provenance.kept turned sound arrived message
        (authentic message (Multiset.mem_add.mpr (.inr member)))
    · exact sending message member
  | lose lost =>
    exact ⟨sound, fun message member => authentic message (Multiset.mem_cons_of_mem member)⟩
  | duplicate message =>
    refine ⟨sound, fun other member => authentic other ?_⟩
    obtain rfl | member := Multiset.mem_cons.mp member
    · exact Multiset.mem_cons_self other _
    · exact member
  | inject foreign =>
    refine ⟨sound, fun other member => ?_⟩
    obtain rfl | member := Multiset.mem_cons.mp member
    · exact provenance.injected _ _ foreign
    · exact authentic other member

/-- Whatever the network does, the parties stay sound and every message in flight is authentic. -/
theorem of_run (provenance : Provenance turn foreign) {guard : Network σ μ → NetworkEvent μ → Prop}
    {start network : Network σ μ} {past : List (NetworkEvent μ)} (initially : provenance.Holds start)
    (run : NetworkRun turn foreign guard start past network) : provenance.Holds network :=
  @GuardedRun.invariant _ _ _ _ _ (fun _ network => provenance.Holds network) initially
    (fun _ _ _ _ holds _ step => provenance.of_step holds step) _ _ run

end Provenance

/-! ## Boards

On a board the messages stay: whoever takes a turn has seen some of them, and nothing is lost. -/

inductive BoardStep (turn : σ → Multiset μ → Multiset μ → σ → Prop) (foreign : μ → Prop) :
    Network σ μ → NetworkEvent μ → Network σ μ → Prop where
  | turn {parties next : σ} {board seen sent : Multiset μ} :
      seen ⊆ board → turn parties seen sent next →
      BoardStep turn foreign ⟨parties, board⟩ (.turn seen sent) ⟨next, board + sent⟩
  | inject {parties : σ} {board : Multiset μ} {message : μ} :
      foreign message →
      BoardStep turn foreign ⟨parties, board⟩ (.injected message) ⟨parties, message ::ₘ board⟩

abbrev BoardRun (turn : σ → Multiset μ → Multiset μ → σ → Prop) (foreign : μ → Prop)
    (guard : Network σ μ → NetworkEvent μ → Prop) :=
  GuardedRun (BoardStep turn foreign) guard

namespace Provenance

variable {turn : σ → Multiset μ → Multiset μ → σ → Prop} {foreign : μ → Prop}

theorem of_board_step (provenance : Provenance turn foreign) {network next : Network σ μ}
    {event : NetworkEvent μ} (holds : provenance.Holds network)
    (step : BoardStep turn foreign network event next) : provenance.Holds next := by
  cases step with
  | @turn parties next board seen sent visible turned =>
    -- Every message that is seen stays for the others, as if it had been duplicated before.
    have doubled : provenance.Holds ⟨parties, seen + board⟩ := by
      refine ⟨holds.1, fun message member => holds.2 message ?_⟩
      obtain shown | kept := Multiset.mem_add.mp member
      · exact Multiset.mem_of_subset visible shown
      · exact kept
    exact provenance.of_step doubled (.turn turned)
  | inject foreign => exact provenance.of_step holds (.inject foreign)

theorem of_board_run (provenance : Provenance turn foreign)
    {guard : Network σ μ → NetworkEvent μ → Prop} {start network : Network σ μ}
    {past : List (NetworkEvent μ)} (initially : provenance.Holds start)
    (run : BoardRun turn foreign guard start past network) : provenance.Holds network :=
  @GuardedRun.invariant _ _ _ _ _ (fun _ network => provenance.Holds network) initially
    (fun _ _ _ _ holds _ step => provenance.of_board_step holds step) _ _ run

end Provenance

/-! ## Steps that are possible -/

section Possible

variable {turn : σ → Multiset μ → Multiset μ → σ → Prop} {foreign : μ → Prop} {parties next : σ}
  {inFlight sent : Multiset μ}

theorem NetworkStep.of_turn (turned : turn parties 0 sent next) :
    NetworkStep turn foreign ⟨parties, inFlight⟩ (.turn 0 sent) ⟨next, inFlight + sent⟩ := by
  have step := @NetworkStep.turn σ μ turn foreign parties next 0 sent inFlight turned
  rwa [Multiset.zero_add] at step

/-- A party may take any message in flight, and leaves the others there. -/
theorem NetworkStep.of_mem {message : μ} (turned : turn parties {message} sent next)
    (member : message ∈ inFlight) :
    ∃ rest, NetworkStep turn foreign ⟨parties, inFlight⟩ (.turn {message} sent)
      ⟨next, rest + sent⟩ := by
  obtain ⟨rest, rfl⟩ := Multiset.exists_cons_of_mem member
  rw [← Multiset.singleton_add]
  exact ⟨rest, .turn turned⟩

end Possible

/-! ## Books -/

section Books

variable (kind : μ → Prop) [DecidablePred kind]

/-! How many messages of a kind an event takes from the network or puts into it. -/

def NetworkEvent.taking : NetworkEvent μ → Nat
  | .turn received _ => received.countP kind
  | _ => 0

def NetworkEvent.sending : NetworkEvent μ → Nat
  | .turn _ sent => sent.countP kind
  | _ => 0

def NetworkEvent.losing : NetworkEvent μ → Nat
  | .lost message => if kind message then 1 else 0
  | _ => 0

def NetworkEvent.duplicating : NetworkEvent μ → Nat
  | .duplicated message => if kind message then 1 else 0
  | _ => 0

def NetworkEvent.injecting : NetworkEvent μ → Nat
  | .injected message => if kind message then 1 else 0
  | _ => 0

/-- A count over the events of a run. -/
def total (count : NetworkEvent μ → Nat) (past : List (NetworkEvent μ)) : Nat :=
  (past.map count).sum

theorem countP_singleton (message : μ) :
    ({message} : Multiset μ).countP kind = if kind message then 1 else 0 := by
  rw [← Multiset.cons_zero, Multiset.countP_cons, Multiset.countP_zero, Nat.zero_add]

@[simp] theorem total_nil (count : NetworkEvent μ → Nat) : total count [] = 0 := rfl

@[simp] theorem total_concat (count : NetworkEvent μ → Nat) (past : List (NetworkEvent μ))
    (event : NetworkEvent μ) : total count (past ++ [event]) = total count past + count event := by
  simp [total]

variable {kind} {turn : σ → Multiset μ → Multiset μ → σ → Prop} {foreign : μ → Prop}
  {guard : Network σ μ → NetworkEvent μ → Prop}

variable (kind) in
theorem NetworkStep.balance {network next : Network σ μ} {event : NetworkEvent μ}
    (step : NetworkStep turn foreign network event next) :
    event.taking kind + event.losing kind + next.inFlight.countP kind =
      network.inFlight.countP kind + event.sending kind + event.duplicating kind +
        event.injecting kind := by
  cases step with
  | turn _ =>
    simp only [NetworkEvent.taking, NetworkEvent.losing, NetworkEvent.sending,
      NetworkEvent.duplicating, NetworkEvent.injecting, Multiset.countP_add]
    omega
  | lose message =>
    simp only [NetworkEvent.taking, NetworkEvent.losing, NetworkEvent.sending,
      NetworkEvent.duplicating, NetworkEvent.injecting, Multiset.countP_cons]
    omega
  | duplicate message =>
    simp only [NetworkEvent.taking, NetworkEvent.losing, NetworkEvent.sending,
      NetworkEvent.duplicating, NetworkEvent.injecting, Multiset.countP_cons]
    omega
  | inject _ =>
    simp only [NetworkEvent.taking, NetworkEvent.losing, NetworkEvent.sending,
      NetworkEvent.duplicating, NetworkEvent.injecting, Multiset.countP_cons]
    omega

variable (kind) in
/-- Of every kind of message, what was received or lost and what is in flight is what was in flight
and what has been sent, duplicated or injected. -/
theorem NetworkRun.balance {start network : Network σ μ} {past : List (NetworkEvent μ)}
    (run : NetworkRun turn foreign guard start past network) :
    total (NetworkEvent.taking kind) past + total (NetworkEvent.losing kind) past +
        network.inFlight.countP kind =
      start.inFlight.countP kind + total (NetworkEvent.sending kind) past +
        total (NetworkEvent.duplicating kind) past + total (NetworkEvent.injecting kind) past := by
  induction run with
  | refl => simp
  | tail _ _ step inductionHypothesis =>
    have balance := step.balance kind
    simp only [total_concat]
    omega

/-- A kind that the outside does not send is not injected. -/
theorem NetworkRun.injecting_eq_zero (never : ∀ message, foreign message → ¬ kind message)
    {start network : Network σ μ} {past : List (NetworkEvent μ)}
    (run : NetworkRun turn foreign guard start past network) :
    total (NetworkEvent.injecting kind) past = 0 := by
  induction run with
  | refl => rfl
  | tail _ _ step inductionHypothesis =>
    rw [total_concat, inductionHypothesis, Nat.zero_add]
    cases step with
    | turn _ => rfl
    | lose message => rfl
    | duplicate message => rfl
    | inject foreign => exact if_neg (never _ foreign)

/-! A number that the parties keep follows the events of a run, from below or from above. -/

section Measure

variable (measure : σ → Nat) (gain : NetworkEvent μ → Nat) {start network : Network σ μ}
  {past : List (NetworkEvent μ)}

theorem NetworkRun.measure_le
    (steps : ∀ {earlier before event after}, NetworkRun turn foreign guard start earlier before →
      NetworkStep turn foreign before event after →
      measure after.parties ≤ measure before.parties + gain event)
    (run : NetworkRun turn foreign guard start past network) :
    measure network.parties ≤ measure start.parties + total gain past := by
  induction run with
  | refl => exact Nat.le_add_right _ _
  | tail earlier _ step inductionHypothesis =>
    have grown := steps earlier step
    rw [total_concat]
    omega

theorem NetworkRun.le_measure
    (steps : ∀ {earlier before event after}, NetworkRun turn foreign guard start earlier before →
      NetworkStep turn foreign before event after →
      measure before.parties + gain event ≤ measure after.parties)
    (run : NetworkRun turn foreign guard start past network) :
    measure start.parties + total gain past ≤ measure network.parties := by
  induction run with
  | refl => exact Nat.le_refl _
  | tail earlier _ step inductionHypothesis =>
    have grown := steps earlier step
    rw [total_concat]
    omega

end Measure

end Books

end CLib
