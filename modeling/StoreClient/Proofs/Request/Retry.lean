import StoreClient.Proofs.Request.Layout
import StoreClient.Request.Basic

/-!
# Sending a request again

Reading a response changes the exchange that the request is written from. This module follows each
part of the exchange through the response into the request that is sent again. The key, the
partition and the correlation id stay; the compare-and-swap value does not, as it is taken over from
every response whose header can be read, whether the request succeeded or not.
-/

namespace StoreClient

namespace Envelope

variable (e : Envelope) (x : Exchange) (response : Bytes)

theorem read_key : (e.read x response).key = x.key := by
  unfold read
  split
  · rfl
  · split <;> rfl

theorem read_vbucket : (e.read x response).vbucket = x.vbucket := by
  unfold read
  split
  · rfl
  · split <;> rfl

theorem read_correlationId : (e.read x response).correlationId = x.correlationId := by
  unfold read
  split
  · rfl
  · split <;> rfl

/-- A response without a readable header leaves the CAS as it was. -/
theorem read_cas_of_error {fault : Fault} (h : Header.parse response = .error fault) :
    (e.read x response).cas = x.cas := by
  unfold read
  rw [h]
  rfl

/-- A response that can be read leaves its CAS in the exchange, refused or not. -/
theorem read_cas_of_ok {header : Header} (h : Header.parse response = .ok header) :
    (e.read x response).cas = header.cas := by
  unfold read
  rw [h]
  simp only
  split <;> rfl

end Envelope

/-- Taking the value leaves nothing on the exchange that a copy for a retry keeps. -/
theorem Operation.retryCopy_afterValue {α : Type} (op : Operation α) (x : Exchange) :
    (op.afterValue x).retryCopy = x.retryCopy := by
  unfold afterValue
  split <;> rfl

namespace Request

/-- The layout of a request depends on the key and the partition of the exchange alone. -/
theorem layout_congr (r : Request) {x y : Exchange} (hKey : y.key = x.key)
    (hVBucket : y.vbucket = x.vbucket) : r.operation.layout y = r.operation.layout x := by
  have hBytes : y.keyBytes = x.keyBytes := by
    unfold Exchange.keyBytes
    rw [hKey]
  have hBody : Observe.body y = Observe.body x := by
    unfold Observe.body
    rw [hBytes, hVBucket]
  cases r with
  | counter c => simp only [operation, Counter.operation, hBytes, hVBucket]
  | hello h => simp only [operation, Hello.operation, hBytes, hVBucket]
  | observe => simp only [operation, Observe.operation, hBody]
  | observeSeqno o => rfl
  | lookup l => simp only [operation, Lookup.operation, hBytes, hVBucket]
  | mutation m => simp only [operation, Mutation.operation, hBytes, hVBucket]

variable {r : Request} {x : Exchange} {frame : Bytes}

/-- What is written for a retry is laid out as before, with the compare-and-swap value that the
response has left. -/
theorem write_retryCopy (r : Request) (x : Exchange) (response : Bytes) :
    r.operation.write (r.operation.read x response).retryCopy =
      (r.operation.layout x).frame x.correlationId (r.operation.read x response).cas := by
  have hLayout : r.operation.layout (r.operation.read x response).retryCopy =
      r.operation.layout x :=
    layout_congr r (Envelope.read_key _ x response) (Envelope.read_vbucket _ x response)
  have hId : (r.operation.read x response).retryCopy.correlationId = x.correlationId :=
    Envelope.read_correlationId _ x response
  unfold Envelope.write
  rw [hLayout, hId]
  rfl

/-- After any response, whether its value was taken or not, the request that is sent again differs
from the first one in the eight bytes of the compare-and-swap value at most. It is the same request
exactly if the header of the response cannot be read or carries the value that the caller gave. -/
theorem retry_same_iff_same_cas (hWrite : r.operation.write x = .ok frame) (response : Bytes)
    (y : Exchange) (hy : y = r.operation.read x response ∨
      y = r.operation.afterValue (r.operation.read x response)) :
    r.operation.write y.retryCopy =
        .ok (frame.take 16 ++ Bytes.ofUInt64 y.retryCopy.cas ++ frame.drop 24) ∧
      (r.operation.write y.retryCopy = .ok frame ↔
        ∀ header, Header.parse response = .ok header → header.cas = x.cas) := by
  have hCopy : y.retryCopy = (r.operation.read x response).retryCopy := by
    rcases hy with rfl | rfl
    · rfl
    · exact Operation.retryCopy_afterValue _ _
  have hCas : y.retryCopy.cas = (r.operation.read x response).cas := by
    rw [hCopy]
    rfl
  rw [hCas, hCopy, write_retryCopy]
  refine ⟨Layout.frame_cas hWrite _, (Layout.frame_eq_iff hWrite).trans ?_⟩
  cases hParse : Header.parse response with
  | error fault =>
    rw [Envelope.read_cas_of_error _ x response hParse]
    exact ⟨fun _ header h => (nomatch h), fun _ => rfl⟩
  | ok header =>
    rw [Envelope.read_cas_of_ok _ x response hParse]
    constructor
    · intro h header' hHeader
      cases hHeader
      exact h
    · intro h
      exact h header rfl

/-- A change that is refused with the value it was to be made under is sent again as it was. -/
theorem retry_after_value_of_refusal :
    let r : Request := .mutation { verb := .replace, path := "p", value := [0x31] }
    let x : Exchange := { key := some "k", correlationId := 7, cas := 5 }
    let refusal : Header :=
      { magic := .response, opcode := 0xca, keyLength := 0, extrasLength := 0, datatype := 0
        statusOrVBucket := 2, bodyLength := 0, correlationId := 7, cas := 5 }
    let y := r.operation.afterValue (r.operation.read x refusal.toBytes)
    let frame : Bytes :=
      [128, 202, 0, 1, 3, 0, 0, 0, 0, 0, 0, 6, 0, 0, 0, 7, 0, 0, 0, 0, 0, 0, 0, 5, 0, 1, 0, 107,
        112, 49]
    r.operation.write x = .ok frame ∧
      r.operation.write y.retryCopy =
          .ok (frame.take 16 ++ Bytes.ofUInt64 y.retryCopy.cas ++ frame.drop 24) ∧
        (r.operation.write y.retryCopy = .ok frame ↔
          ∀ header, Header.parse refusal.toBytes = .ok header → header.cas = x.cas) :=
  ⟨by rfl, retry_same_iff_same_cas (by rfl) _ _ (Or.inr rfl)⟩

/-- A change that is to be made only under the value 5 is refused, and is sent again with the value
0 of the refusal, under which it is made in any case. -/
theorem retry_loses_cas :
    let r : Request := .mutation { verb := .replace, path := "p", value := [0x31] }
    let x : Exchange := { key := some "k", correlationId := 7, cas := 5 }
    let refusal : Header :=
      { magic := .response, opcode := 0xca, keyLength := 0, extrasLength := 0, datatype := 0
        statusOrVBucket := 2, bodyLength := 0, correlationId := 7, cas := 0 }
    let failed := r.operation.read x refusal.toBytes
    let frame : Bytes :=
      [128, 202, 0, 1, 3, 0, 0, 0, 0, 0, 0, 6, 0, 0, 0, 7, 0, 0, 0, 0, 0, 0, 0, 5, 0, 1, 0, 107,
        112, 49]
    let retried : Bytes :=
      [128, 202, 0, 1, 3, 0, 0, 0, 0, 0, 0, 6, 0, 0, 0, 7, 0, 0, 0, 0, 0, 0, 0, 0, 0, 1, 0, 107,
        112, 49]
    r.operation.write x = .ok frame ∧ failed.status = .keyExists ∧
      r.operation.write failed.retryCopy = .ok retried ∧ retried ≠ frame :=
  ⟨by rfl, by rfl, by rfl, by decide⟩

end Request

end StoreClient
