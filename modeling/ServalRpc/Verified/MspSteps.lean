import ServalRpc.Model.ClientCalls

/-! # What one call of the MSP handler does

The handler looks at the flags for the end of a connection first, and then at the payload.  A delivery
is that of an ACK, of a RESPONSE, or leaves everything but `received` as it is.
-/

namespace ServalRpc.Verified.MspSteps

open CLib

variable {call : ClientCall} {memory : ClientMemory} {delivery : ClientDelivery}

/-- The payload has this type. -/
def Brings (pktType : UInt8) (delivery : ClientDelivery) : Prop :=
  ∃ payload ∈ delivery.payload, load payload 0 = .ok pktType

/-! ## The end of a connection -/

/-- `received` after the flags. -/
def afterFlags (delivery : ClientDelivery) (received : Int) : Int :=
  let received := if delivery.closed then receivedAtEnd received else received
  if delivery.shutdownRemote then receivedAtEnd received else received

theorem receivedAtEnd_two_iff {received : Int} : receivedAtEnd received = 2 ↔ received = 2 := by
  unfold receivedAtEnd
  split
  · exact Iff.rfl
  · omega

/-- The flags keep a 2, and set no other value to 2. -/
theorem afterFlags_two_iff {received : Int} : afterFlags delivery received = 2 ↔ received = 2 := by
  unfold afterFlags
  cases delivery.closed <;> cases delivery.shutdownRemote <;> simp [receivedAtEnd_two_iff]

/-! ## The payload -/

theorem len_ne_zero {payload : List UInt8} {pktType : UInt8}
    (delivered : delivery.payload = some payload) (type : load payload 0 = .ok pktType) :
    delivery.len ≠ 0 :=
  delivery.complete payload delivered ▸ length_ne_zero_of_load type

theorem mspHandler_response {payload : List UInt8} (delivered : delivery.payload = some payload)
    (type : load payload 0 = .ok rpcPktCallResponse) :
    rpcClientMspHandler call memory delivery =
      mspAnswerBytes call delivery payload >>= fun bytes =>
        storeAnswer memory.rpcResult 0 bytes >>= fun rpcResult =>
          .ok (delivery.len,
            ⟨2, rpcResult.update 0 fun result => result.setServerSid delivery.remote⟩) := by
  have nonempty := len_ne_zero delivered type
  have notAck : rpcPktCallResponse ≠ rpcPktCallAck := by decide
  unfold rpcClientMspHandler
  simp only [delivered, nonempty, if_false, type, Except.mapError, ok_bind, notAck, if_true]
  rfl

theorem mspHandler_cases {after : ClientMemory} {consumed : Nat}
    (handled : rpcClientMspHandler call memory delivery = .ok (consumed, after)) :
    (Brings rpcPktCallAck delivery ∧ after = ⟨1, memory.rpcResult⟩) ∨
      (∃ payload bytes rpcResult, delivery.payload = some payload ∧
        load payload 0 = .ok rpcPktCallResponse ∧
        mspAnswerBytes call delivery payload = .ok bytes ∧
        storeAnswer memory.rpcResult 0 bytes = .ok rpcResult ∧
        after = ⟨2, rpcResult.update 0 fun result => result.setServerSid delivery.remote⟩) ∨
      (¬ Brings rpcPktCallAck delivery ∧ ¬ Brings rpcPktCallResponse delivery ∧
        after = ⟨afterFlags delivery memory.received, memory.rpcResult⟩) := by
  cases isPayload : delivery.payload with
  | none =>
    have brings (pktType : UInt8) : ¬ Brings pktType delivery := by
      rintro ⟨payload, delivered, _⟩
      cases isPayload.symm.trans delivered
    simp only [rpcClientMspHandler, isPayload] at handled
    cases handled
    exact .inr (.inr ⟨brings _, brings _, rfl⟩)
  | some payload =>
    have brings {pktType : UInt8} : Brings pktType delivery ↔ load payload 0 = .ok pktType := by
      simp [Brings, isPayload]
    cases first : load payload 0 with
    | error fault =>
      simp only [rpcClientMspHandler, isPayload, first] at handled
      split at handled
      · cases handled
        exact .inr (.inr ⟨by simp [brings, first], by simp [brings, first], rfl⟩)
      · cases handled
    | ok pktType =>
      by_cases response : pktType = rpcPktCallResponse
      · subst response
        rw [mspHandler_response isPayload first] at handled
        obtain ⟨bytes, answer, handled⟩ := bind_eq_ok_iff.mp handled
        obtain ⟨rpcResult, stored, handled⟩ := bind_eq_ok_iff.mp handled
        cases handled
        exact .inr (.inl ⟨payload, bytes, rpcResult, rfl, first, answer, stored, rfl⟩)
      · simp only [rpcClientMspHandler, isPayload, len_ne_zero isPayload first, if_false, first,
          Except.mapError, ok_bind, response] at handled
        split at handled
        · rename_i isAck
          cases handled
          exact .inl ⟨brings.mpr (isAck ▸ first), rfl⟩
        · rename_i notAck
          cases handled
          exact .inr (.inr ⟨by simpa [brings, first] using notAck,
            by simpa [brings, first] using response, rfl⟩)

end ServalRpc.Verified.MspSteps
