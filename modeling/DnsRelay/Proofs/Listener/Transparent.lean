import DnsRelay.Proofs.Listener.Answers
import DnsRelay.Proofs.Message.Recased

/-!
# Relaying is transparent

What goes to a server for a client is the message of the client under another id and with its name in another case, and what goes
back is the response with the id and the name of the client. `relaying_transparent` says which octets this leaves as they are, and
that the second change undoes the first.
-/

namespace DnsRelay

/-! ## Messages on their way to a server -/

namespace Forwarder

/-- A message in some case is the message, or another name was written over its name, which is not compressed. -/
theorem randomizeCase_cases (wanted : Bool) (flip : Nat → Bool) (out : Outbound) :
    (randomizeCase wanted flip out).1 = out.message ∨ ∃ name : Name, name.same out.question.qname = true ∧
      out.message.overwriteName? name = some (randomizeCase wanted flip out).1 := by
  unfold randomizeCase
  split
  · dsimp only
    split
    · rename_i octets ho
      exact Or.inr ⟨_, Name.same_withCase flip out.question.qname, ho⟩
    · exact Or.inl rfl
  · exact Or.inl rfl

/-- A message in some case differs from the message at most in the case of letters of its name. -/
theorem recased_randomizeCase (wanted : Bool) (flip : Nat → Bool) (out : Outbound) :
    out.message.Recased (randomizeCase wanted flip out).1 (headerSize + out.question.qname.wire.length) := by
  rcases randomizeCase_cases wanted flip out with he | ⟨name, hsame, ho⟩
  · rw [he]
    exact Octets.recased_refl _ _
  · rw [← Name.length_of_same hsame]
    exact Octets.recased_of_overwriteName? ho

end Forwarder

/-! ## Responses on their way to a client -/

namespace Reply

/-- The mark of a response does not matter for the name. -/
theorem named_asResponse (q : Question) (response : Octets) :
    named q response.asResponse = (named q response).asResponse := by
  unfold named
  rw [Octets.overwriteName?_asResponse]
  cases response.overwriteName? q.qname with
  | none => rfl
  | some octets => rfl

/-- A response as the client gets it differs from the response at most in the id and in the case of letters of the name. -/
theorem recased_restore (received : Message) (q : Question) (response : Octets) :
    response.Recased (restore received q response) (headerSize + q.qname.wire.length) := by
  rw [restore_eq]
  refine Octets.Recased.setId ?_ received.id
  unfold named
  cases ho : response.overwriteName? q.qname with
  | none => exact Octets.recased_refl _ _
  | some octets => exact Octets.recased_of_overwriteName? ho

/-- The name of a message, put into the message in any case, gives the message back. -/
theorem named_randomizeCase {m : Message} {q : Question} {r : Reader} (hq : (Reader.ofMessage m).readQuestion = .ok (q, r))
    (wanted : Bool) (flip : Nat → Bool) (client : Endpoint) (kind : QueryKind) :
    named q (Forwarder.randomizeCase wanted flip ⟨m.octets, q, client, kind⟩).1 = m.octets := by
  rcases Forwarder.randomizeCase_cases wanted flip ⟨m.octets, q, client, kind⟩ with he | ⟨name, hsame, ho⟩
  · rw [he, named]
    cases ho : m.octets.overwriteName? q.qname with
    | none => rfl
    | some octets =>
      obtain ⟨rfl, -⟩ := (Octets.overwriteName?_eq_some_iff _ _ _).1 ho
      exact Octets.overwrite_of_slice? (Octets.slice?_of_overwriteName? hq (Name.same_refl q.qname) ho).1
  · rw [named, Octets.overwriteName?_of_overwriteName? hq hsame ho, Option.getD_some]

/-- A server that sends a message back as a response makes the client get its own message as a response. -/
theorem restore_asResponse {m : Message} {q : Question} {r : Reader} (hq : (Reader.ofMessage m).readQuestion = .ok (q, r))
    (wanted : Bool) (flip : Nat → Bool) (client : Endpoint) (kind : QueryKind) (id : UInt16) :
    restore m q ((Forwarder.randomizeCase wanted flip ⟨m.octets, q, client, kind⟩).1.setId id).asResponse =
      m.octets.asResponse := by
  generalize hrecased : (Forwarder.randomizeCase wanted flip ⟨m.octets, q, client, kind⟩).1 = recased
  have hnamed : named q recased = m.octets := hrecased ▸ named_randomizeCase hq wanted flip client kind
  calc restore m q (recased.setId id).asResponse
      = (named q (recased.setId id).asResponse).setId m.id := restore_eq _ _ _
    _ = ((m.octets.setId id).asResponse).setId m.id := by rw [named_asResponse, named_setId, hnamed]
    _ = ((m.octets.setId id).setId m.id).asResponse := Octets.setId_asResponse _ _
    _ = m.octets.asResponse := by rw [(Octets.sameBody_setId m.octets id).setId_id]

end Reply

namespace Listener

/-- What is sent for a message of a client is as long as the message, and differs from it at most in the id and, if the name
stands uncompressed behind the header, in the case of its letters. So does a reply from the response that it is made of. If
this response is what was sent, marked as a response, then the reply is the message of the client, marked as a response. -/
theorem relaying_transparent (r : Received) (m : Message) (q : Question)
    (ht : triage r.octets r.client.canonical = .forward m q) :
    let out : Outbound := ⟨r.octets, q, r.client.canonical, .relay⟩
    let stop := headerSize + q.qname.wire.length
    (∀ f : Forwarder, f.Reachable → ∀ now draws failure resolver sent f',
      f.send now draws failure out resolver = (.ok sent, f') →
      r.octets.Recased sent.octets stop ∧ ((∃ k : Nat, 2 ≤ k ∧ sent.octets[k]? ≠ r.octets[k]?) →
        ∃ labels, Name.Spelled r.octets headerSize headerSize [] labels stop ∧ q.qname.wire = Name.encodeLabels labels)) ∧
    ∀ (σ : Type) (send : Sender σ) (l : Listener) (s : σ) (response : Octets), l.relayed send s r q = .ok response →
      ¬(r.transport = .udp ∧ Reply.payloadSize m < response.size) →
      ∃ reply, (l.handle send s r).1 = some reply ∧ response.Recased reply stop ∧
        ∀ f : Forwarder, f.Reachable → ∀ now draws failure resolver sent f',
          f.send now draws failure out resolver = (.ok sent, f') → response = sent.octets.asResponse →
          reply = r.octets.asResponse := by
  intro out stop
  obtain ⟨hm, -, -, -, rest, hq⟩ := (triage_eq_forward_iff _ _ _ _).1 ht
  have hoctets : m.octets = r.octets := (Message.ofOctets?_eq_some_iff _ _).1 hm
  constructor
  · intro f hf now draws failure resolver sent f' hsend
    rw [(hf.coherent.send_ok hsend).octets]
    refine ⟨(Forwarder.recased_randomizeCase _ _ out).setId _, ?_⟩
    rintro ⟨k, hk, hne⟩
    rw [(Octets.sameBody_setId _ _).body k hk] at hne
    rcases Forwarder.randomizeCase_cases f.config.caseRandomization draws.flip out with he | ⟨name, hsame, ho⟩
    · exact absurd (by rw [he]) hne
    · have hover : r.octets.overwriteName? name = _ := ho
      rw [← hoctets] at hover ⊢
      exact (Octets.slice?_of_overwriteName? hq hsame hover).2
  · intro σ send l s response hrelayed hfits
    have hreply : (l.handle send s r).1 = some (Reply.restore m q response) := by
      rw [handle_relayed l send s ht, hrelayed]
      exact conclude_relayed l r.transport r.client.canonical m hfits
    refine ⟨_, hreply, Reply.recased_restore m q response, ?_⟩
    rintro f hf now draws failure resolver sent f' hsend rfl
    rw [(hf.coherent.send_ok hsend).octets]
    dsimp only [out]
    rw [← hoctets]
    exact Reply.restore_asResponse hq _ _ _ _ _

/-- A query for the addresses of `a.` goes out as one for `A.` under the id 7, and the server sends it back as a response. The
client gets its own message as a response. -/
theorem relaying_transparent_sent_back :
    let octets : Octets := #[66, 66, 1, 0, 0, 1, 0, 0, 0, 0, 0, 0, 1, 97, 0, 0, 1, 0, 1]
    let q : Question := ⟨⟨[1, 97, 0]⟩, RRType.a, RRClass.internet⟩
    let response : Octets := #[0, 7, 129, 0, 0, 1, 0, 0, 0, 0, 0, 0, 1, 65, 0, 0, 1, 0, 1]
    let c : Conditions :=
      ⟨0, ⟨fun _ => ⟨7, by decide⟩, fun _ => true⟩, none, fun sent => [.datagram sent.octets.asResponse (.v4 1 53)]⟩
    let f : { f : Forwarder // f.Reachable } := ⟨.start ⟨1000, 1, true⟩ ⟨64, none⟩, _, _, [], rfl⟩
    let l : Listener := ⟨⟨.v4 1 53, .udp⟩, none, none, .servFail, false⟩
    let r : Received := ⟨octets, .v4 2 53, .udp⟩
    (∃ m, triage octets (.v4 2 53) = .forward m q) ∧
      l.relayed (Forwarder.sender fun _ _ => c) f r q = .ok response ∧
      (l.handle (Forwarder.sender fun _ _ => c) f r).1 =
        some #[66, 66, 129, 0, 0, 1, 0, 0, 0, 0, 0, 0, 1, 97, 0, 0, 1, 0, 1] := by
  intro octets q response c f l r
  let m : Message := ⟨octets, by decide⟩
  let sent : Forwarder.Sent := ⟨⟨⟨0, 0⟩, 7, 0, .v4 1 53⟩, #[0, 7, 1, 0, 0, 1, 0, 0, 0, 0, 0, 0, 1, 65, 0, 0, 1, 0, 1]⟩
  have ht : triage octets (.v4 2 53) = .forward m q := by cbv
  have hsend : (f.val.send 0 c.draws none ⟨octets, q, .v4 2 53, .relay⟩ ⟨.v4 1 53, .udp⟩).1 = .ok sent := by cbv
  have hrelayed : l.relayed (Forwarder.sender fun _ _ => c) f r q = .ok response := by cbv
  have hresponse : response = sent.octets.asResponse := by cbv
  have hfits : ¬(Transport.udp = .udp ∧ Reply.payloadSize m < response.size) := by
    rintro ⟨-, hlong⟩
    exact absurd (Nat.lt_of_le_of_lt (Reply.le_payloadSize m) hlong) (by decide)
  obtain ⟨-, hrelay⟩ := relaying_transparent r m q ht
  obtain ⟨reply, hreply, -, hback⟩ := hrelay _ (Forwarder.sender fun _ _ => c) l f response hrelayed hfits
  refine ⟨⟨m, ht⟩, hrelayed, ?_⟩
  rw [hreply, hback f.val f.property 0 c.draws none ⟨.v4 1 53, .udp⟩ sent _ (Prod.ext hsend rfl) hresponse]
  cbv

end Listener

end DnsRelay
