import ServalRpc.CLib.Journal
import ServalRpc.Model.Client

/-! # The store under a listener

The store of a node grows while `_rpc_client_rhizome_listen` polls it.  An insertion may come between
any two rounds of the listener.
-/

namespace ServalRpc

open CLib

/-- `bundlelist.json`, and `newsince/<token>/bundlelist.json`; the store has its rows in the order of
the insertions. -/
def bundleList (store : List Row) : Option CString → List Row
  | none => store.reverse
  | some token => entriesSince Row.token (some token) store

inductive ListenEvent where
  | insert (row : Row)
  | poll (elapsed : Int) (listing : Option (List Row))
  | visit (row : Row) (input : RowInput)

/-- The store and the listener, with the store at the first and at the last poll. -/
structure ListenState where
  store : List Row
  listener : RhizomeState
  firstStore : Option (List Row)
  lastStore : List Row

/-- `rpc_client_call_rhizome` has inserted the bundle of its call, the newest of the store. -/
def ListenState.start (store : List Row) : ListenState := ⟨store, .entry, none, []⟩

/-- A poll gets any listing here; `DaemonLists` says which one the daemon gives. -/
inductive ListenStep (call : ClientCall) : ListenState → ListenEvent → ListenState → Prop where
  | insert {state : ListenState} (row : Row) :
      ListenStep call state (.insert row) { state with store := state.store ++ [row] }
  | poll {state : ListenState} {next : RhizomeState} {event : RhizomeEvent} (elapsed : Int)
      (listing : Option (List Row)) :
      state.listener.returned = none → state.listener.pending = [] →
      state.listener.received = 0 →
      rhizomeEvent call state.listener (.poll elapsed listing) = .ok event →
      rpcClientRhizomeListenRound call state.listener event = .ok next →
      ListenStep call state (.poll elapsed listing)
        { state with
          listener := next
          firstStore := some (state.firstStore.getD state.store)
          lastStore := state.store }
  | visit {state : ListenState} {next : RhizomeState} {event : RhizomeEvent} {row : Row}
      {rows : List Row} (input : RowInput) :
      state.listener.returned = none → state.listener.pending = row :: rows →
      rhizomeEvent call state.listener (.visit input) = .ok event →
      rpcClientRhizomeListenRound call state.listener event = .ok next →
      ListenStep call state (.visit row input) { state with listener := next }

/-- Every bundle gets a token of its own, and a poll that is answered gets the list that it asks
for. -/
def DaemonLists (state : ListenState) : ListenEvent → Prop
  | .insert row => row.token ≠ none ∧ ∀ old ∈ state.store, old.token ≠ row.token
  | .poll _ listing => ∀ rows ∈ listing, rows = bundleList state.store state.listener.token
  | .visit _ _ => True

/-- The rows that the loop over the rows has been at. -/
def visitedRow? : ListenEvent → Option Row
  | .visit row _ => some row
  | _ => none

def examinedRows (events : List ListenEvent) : List Row := events.filterMap visitedRow?

end ServalRpc
