import DnsRelay.Proofs.Forward.Delivery
import DnsRelay.Proofs.Listener.Triage

/-!
# The question that is sent

A message that is relayed is changed in place after its question was read. `question_sent_iff` says for which messages this can
go wrong: for those whose name, as the client encoded it, leads through the id.
-/

namespace DnsRelay

namespace Forwarder

/-- The octets hold a header and behind it a question. -/
def Asks (octets : Octets) (q : Question) : Prop :=
  ∃ start stop, Reader.ofOctets? octets = .ok start ∧ start.readQuestion = .ok (q, stop)

namespace SendingAux

/-- Octets ask a question iff they are a message whose first question it is. -/
theorem asks_iff (octets : Octets) (q : Question) :
    Asks octets q ↔ ∃ m : Message, m.octets = octets ∧ ∃ r, (Reader.ofMessage m).readQuestion = .ok (q, r) := by
  unfold Asks Reader.ofOctets?
  constructor
  · rintro ⟨start, stop, hs, hq⟩
    split at hs
    · rename_i m hm
      cases hs
      exact ⟨m, (Message.ofOctets?_eq_some_iff _ _).1 hm, stop, hq⟩
    · cases hs
  · rintro ⟨m, hm, r, hq⟩
    exact ⟨Reader.ofMessage m, r, by rw [(Message.ofOctets?_eq_some_iff _ _).2 hm], hq⟩

/-- The id of a message can be set without changing its question, if the name avoids the id. -/
theorem asks_setId {m : Message} {q : Question} {r : Reader} (hq : (Reader.ofMessage m).readQuestion = .ok (q, r))
    (ha : Name.AvoidsId m.octets headerSize) (id : UInt16) : Asks (m.octets.setId id) q := by
  obtain ⟨m', hm'⟩ := m.exists_setId id
  have hbody : m.octets.SameBody m'.octets := hm' ▸ Octets.sameBody_setId m.octets id
  exact (asks_iff _ _).2 ⟨m', hm', _, Reader.readQuestion_of_avoidsId hbody (by decide) ha hq⟩

/-- The octets that are sent ask the question that is registered, if the name in the message to relay avoids the id. -/
theorem asks_randomizeCase {m : Message} {q : Question} {r : Reader}
    (hq : (Reader.ofMessage m).readQuestion = .ok (q, r)) (ha : Name.AvoidsId m.octets headerSize) (wanted : Bool)
    (flip : Nat → Bool) (client : Endpoint) (kind : QueryKind) (id : UInt16) :
    Asks ((randomizeCase wanted flip ⟨m.octets, q, client, kind⟩).1.setId id)
      (randomizeCase wanted flip ⟨m.octets, q, client, kind⟩).2 := by
  cases wanted with
  | false => exact asks_setId hq ha id
  | true =>
    simp only [randomizeCase, if_true]
    split
    · rename_i octets ho
      have hvalid := Reader.valid_of_readQuestion hq
      have hsize : octets.size = m.octets.size := by
        rw [((Octets.overwriteName?_eq_some_iff _ _ _).1 ho).1, Octets.size_overwrite]
      obtain ⟨m', rfl⟩ : ∃ m' : Message, m'.octets = octets := ⟨⟨octets, hsize ▸ m.hasHeader⟩, rfl⟩
      obtain ⟨hq', ha', -⟩ :=
        Reader.readQuestion_of_overwriteName? (hvalid.of_same (Name.same_withCase flip q.qname)) ho hq
      exact asks_setId hq' ha' id
    · exact asks_setId hq ha id

end SendingAux

open SendingAux

/-- What was sent is pending under its handle. -/
theorem Sends.query? {f f' : Forwarder} {now : Nat} {draws : Draws} {out : Outbound} {server : Endpoint} {sent : Sent}
    (hs : f.Sends now draws out server sent f') :
    f'.query? sent.handle = some (f.queryFor now draws out server sent.handle.id) :=
  (DeliveryAux.query?_eq_some_iff hs.adds.coherent sent.handle _).2 ⟨_, hs.adds.mem, rfl, rfl⟩

/-- For a message to relay, these say the same.
1. Whatever state a run has led to, whichever id is drawn and whether or not and how the case of the name is randomized: if the
message is sent, then the query is pending under its handle, and the octets sent ask the question of this query, octet for octet.
2. No run of the name, as the client encoded it, starts in the id. -/
theorem question_sent_iff (octets : Octets) (client : Endpoint) (m : Message) (q : Question)
    (ht : Listener.triage octets client = .forward m q) :
    (∀ f : Forwarder, f.Reachable → ∀ now draws failure resolver sent f',
      f.send now draws failure ⟨octets, q, client, .relay⟩ resolver = (.ok sent, f') →
      ∃ query, f'.query? sent.handle = some query ∧ Asks sent.octets query.question) ↔
      Name.AvoidsId octets headerSize := by
  obtain ⟨hm, -, -, -, r, hq⟩ := (Listener.triage_eq_forward_iff _ _ _ _).1 ht
  have hoctets := (Message.ofOctets?_eq_some_iff _ _).1 hm
  subst hoctets
  constructor
  · intro h
    -- an id at whose octets no run can start is drawn, and the case is left alone
    obtain ⟨query, -, hasks⟩ := h (start ⟨0, 1, false⟩ ⟨0, none⟩) ⟨_, _, [], rfl⟩ 0
      ⟨fun _ => ⟨0x4040, by decide⟩, fun _ => false⟩ none ⟨client, .tcp⟩ _ _ rfl
    obtain ⟨m', hm', r', hq'⟩ := (asks_iff _ _).1 hasks
    have hbody : m.octets.SameBody m'.octets := hm' ▸ Octets.sameBody_setId m.octets 0x4040
    have h2 : 2 ≤ m.octets.size := Nat.le_trans (by decide) m.hasHeader
    obtain ⟨h0, h1⟩ := Octets.getElem?_setId m.octets h2 0x4040
    exact (Reader.avoidsId_of_readQuestion hbody (hm' ▸ h0) (hm' ▸ h1) (by decide) hq').1
  · intro ha f hf now draws failure resolver sent f' hsend
    rcases hf.coherent.send_cases now draws failure ⟨m.octets, q, client, .relay⟩ resolver with
      ⟨e, he⟩ | ⟨sent', f₁, he, hs⟩ | ⟨e, f₁, f₂, he, -⟩
    · rw [he] at hsend
      cases hsend
    · rw [he] at hsend
      cases hsend
      refine ⟨_, hs.query?, ?_⟩
      rw [hs.octets]
      exact asks_randomizeCase hq ha _ _ _ _ _
    · rw [he] at hsend
      cases hsend

/-- The name of a query for the addresses of `a.`, written out, avoids the id; so the question is sent that is registered. -/
theorem question_sent_uncompressed :
    let octets : Octets := #[0, 1, 0, 0, 0, 1, 0, 0, 0, 0, 0, 0, 1, 97, 0, 0, 1, 0, 1]
    let q : Question := ⟨⟨[1, 97, 0]⟩, RRType.a, RRClass.internet⟩
    (∃ m, Listener.triage octets (.v4 2 53) = .forward m q) ∧ Name.AvoidsId octets headerSize ∧
      ∀ f : Forwarder, f.Reachable → ∀ now draws failure resolver sent f',
        f.send now draws failure ⟨octets, q, .v4 2 53, .relay⟩ resolver = (.ok sent, f') →
        ∃ query, f'.query? sent.handle = some query ∧ Asks sent.octets query.question := by
  intro octets q
  have ht : Listener.triage octets (.v4 2 53) = .forward ⟨octets, by decide⟩ q := by cbv
  have hs : Name.Spelled octets headerSize headerSize [] [[97]] 15 := by
    refine (Name.spelled_nil_iff _ _ _ _ _).2 ⟨?_, rfl, rfl⟩
    simp [Name.ValidLabel, Name.maxLabelLength]
  have ha : Name.AvoidsId octets headerSize := by
    intro runs labels stop h
    obtain ⟨rfl, -, -⟩ := hs.unique h
    exact List.forall_mem_nil _
  exact ⟨⟨_, ht⟩, ha, (question_sent_iff octets (.v4 2 53) _ q ht).2 ha⟩

/-- A client asks for the addresses of `a.` with a name that is a pointer to its id, whose octets happen to spell `a.` together
with the next one. Once the id 0x4040 is drawn, the octets sent ask no question any more. -/
theorem question_sent_lost :
    let octets : Octets := #[1, 97, 0, 0, 0, 1, 0, 0, 0, 0, 0, 0, 192, 0, 0, 1, 0, 1]
    let q : Question := ⟨⟨[1, 97, 0]⟩, RRType.a, RRClass.internet⟩
    let draws : Draws := ⟨fun _ => ⟨0x4040, by decide⟩, fun _ => false⟩
    let sent : Sent := ⟨⟨⟨0, 0⟩, 0x4040, 0, .v4 1 53⟩, #[64, 64, 0, 0, 0, 1, 0, 0, 0, 0, 0, 0, 192, 0, 0, 1, 0, 1]⟩
    let result := (start ⟨1000, 1, false⟩ ⟨64, none⟩).send 0 draws none ⟨octets, q, .v4 2 53, .relay⟩ ⟨.v4 1 53, .udp⟩
    (∃ m, Listener.triage octets (.v4 2 53) = .forward m q) ∧ result.1 = .ok sent ∧
      result.2.query? sent.handle = some ⟨0x4040, q, .v4 2 53, .v4 1 53, 0, .relay⟩ ∧ ∀ q', ¬Asks sent.octets q' := by
  intro octets q draws sent result
  refine ⟨⟨⟨octets, by decide⟩, by cbv⟩, by cbv, by cbv, ?_⟩
  rintro q' ⟨start, stop, hs, hq⟩
  have hread : (Reader.ofMessage ⟨sent.octets, by decide⟩).readQuestion = .error (.invalidName .labelTooLong) := by cbv
  cases hs
  rw [hread] at hq
  cases hq

end Forwarder

end DnsRelay
