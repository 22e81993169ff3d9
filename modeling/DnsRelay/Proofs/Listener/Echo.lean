import DnsRelay.Proofs.Forward.Answered
import DnsRelay.Proofs.Listener.Reply

/-!
# The question in the reply to a client

`relayed_reply_echoes_iff` says which of the responses that a forwarder delivers for a query of a client are relayed so that the
client reads its own question in the reply, octet for octet.
-/

namespace DnsRelay

namespace Forwarder

/-- The question sent for a message is the question of the message, in some case. -/
theorem randomizeCase_same (wanted : Bool) (flip : Nat → Bool) (out : Outbound) :
    (randomizeCase wanted flip out).2.same out.question = true := by
  unfold randomizeCase
  split
  · dsimp only
    split
    · simp [Question.same, Name.same_withCase]
    · exact Question.same_refl _
  · exact Question.same_refl _

/-- What a message is answered with answers every other message with the same question, if the name is written out there. -/
theorem Answered.of_plain {out out' : Outbound} {octets : Octets} (h : Answered out octets)
    (hq : out'.question = out.question) {labels : List (List UInt8)} {stop : Nat}
    (hs : Name.Spelled out'.message headerSize headerSize [] labels stop)
    (hw : out'.question.qname.wire = Name.encodeLabels labels) : Answered out' octets := by
  obtain ⟨source, response, wanted, flip, hp, hid, hechoes⟩ := (answered_iff _ _).1 h
  have hplain : ∀ wanted flip, ∃ wanted', (randomizeCase wanted' flip out').2 = (randomizeCase wanted flip out).2 := by
    intro wanted flip
    unfold randomizeCase
    cases wanted with
    | false => exact ⟨false, hq⟩
    | true =>
      simp only [if_true]
      cases out.message.overwriteName? (out.question.qname.withCase flip).2 with
      | none => exact ⟨false, hq⟩
      | some octets =>
        have hsame : sameIgnoringCase (Name.encodeLabels labels) (out'.question.qname.withCase flip).2.wire = true := by
          rw [← hw]
          exact (Name.same_comm _ _).trans (Name.same_withCase flip out'.question.qname)
        obtain ⟨octets', ho⟩ := Option.isSome_iff_exists.1 (Octets.overwriteName?_isSome hs hsame)
        rw [hq] at ho
        refine ⟨true, ?_⟩
        simp only [if_true, hq, ho]
  obtain ⟨wanted', he⟩ := hplain wanted flip
  exact (answered_iff _ _).2 ⟨source, response, wanted', flip, hp, hid, he ▸ hechoes⟩

end Forwarder

namespace Listener

variable {σ : Type}

/-- What comes of the query that is relayed for a client. -/
def relayed (l : Listener) (send : Sender σ) (s : σ) (r : Received) (q : Question) : Except ForwardError Octets :=
  let client := r.client.canonical
  let (route, _, l, s) := l.routeOf send s q client
  let (first, second) := l.servers route
  (exchange send l.retrySecondary s ⟨r.octets, q, client, .relay⟩ first second).1

/-- The reply to a query that is forwarded is made of what comes of it. -/
theorem handle_forward (l : Listener) (send : Sender σ) (s : σ) {r : Received} {m : Message} {q : Question}
    (ht : triage r.octets r.client.canonical = .forward m q) :
    (l.handle send s r).1 = ((l.routeOf send s q r.client.canonical).2.2.1.conclude r.transport r.client.canonical m q
      (l.relayed send s r q)).1 := by
  simp only [handle, ht]
  rfl

/-- A response that came of the query makes a reply that echoes the question of the client, if it does so with the id and the
name of the client in it: it is relayed, or in its place goes a short reply. -/
theorem conclude_echoes (l : Listener) (transport : Transport) (client : Endpoint) (m : Message) {q : Question}
    (hq : q.qname.Valid) {response : Octets} (he : Reply.Echoes (Reply.restore m q response) q) :
    ∃ reply, (l.conclude transport client m q (.ok response)).1 = some reply ∧ Reply.Echoes reply q := by
  unfold conclude
  dsimp only
  split
  · dsimp only
    exact Reply.short_echoes m hq _ true
  · exact ⟨_, rfl, he⟩

/-- Every reply that is made of an accepted response to a query, however queries are sent and for whichever client with the
same question, is read as a response with that question, octet for octet, iff the id and the name of a client can be put into
the response (`Reply.Restorable`). -/
theorem relayed_reply_echoes_iff (octets : Octets) (client : Endpoint) (m : Message) (q : Question) (response : Octets)
    (ht : triage octets client = .forward m q) (ha : Forwarder.Answered ⟨octets, q, client, .relay⟩ response) :
    (∀ (σ : Type) (send : Sender σ), send.Genuine → ∀ (l : Listener) (s : σ) (r : Received) (m' : Message),
      triage r.octets r.client.canonical = .forward m' q → l.relayed send s r q = .ok response →
      ∃ reply, (l.handle send s r).1 = some reply ∧ Reply.Echoes reply q) ↔ Reply.Restorable q response := by
  have hvalid : q.qname.Valid := by
    obtain ⟨-, -, -, -, r, hr⟩ := (triage_eq_forward_iff _ _ _ _).1 ht
    exact Reader.valid_of_readQuestion hr
  obtain ⟨source, answer, wanted, flip, hp, -, hanswer⟩ := (Forwarder.answered_iff _ _).1 ha
  have hechoes := Reply.echoes_of_parse hp hanswer
  have hsame := Forwarder.randomizeCase_same wanted flip ⟨octets, q, client, .relay⟩
  constructor
  · intro h
    -- a client asks the same question by connection, under an id at whose octets no run can start
    obtain ⟨m', ht', hid, hasking⟩ := exists_forwarded 0x4040 hvalid client.canonical
    obtain ⟨labels, stop, hs, hw⟩ := hasking.plain
    let out : Outbound := ⟨m'.octets, q, client.canonical, .relay⟩
    have ha' : Forwarder.Answered out response := ha.of_plain rfl hs hw
    let send : Sender Unit := fun s _ out' => (if out' = out then .ok response else .error .timedOut, s)
    have hgenuine : send.Genuine := by
      intro s resolver out' octets' he
      dsimp only [send] at he
      split at he
      · rename_i hout
        cases he
        rw [hout]
        exact ha'
      · cases he
    let l : Listener := ⟨⟨client, .udp⟩, none, none, .servFail, false⟩
    have hrelayed : l.relayed send () ⟨m'.octets, client, .tcp⟩ q = .ok response := by
      simp [relayed, routeOf, servers, exchange, l, send, out]
    obtain ⟨reply, hreply, he⟩ := h Unit send hgenuine l () ⟨m'.octets, client, .tcp⟩ m' ht' hrelayed
    rw [handle_forward l send () ht', hrelayed] at hreply
    have hrestore : Reply.restore m' q response = reply := by
      simpa [conclude] using hreply
    exact Reply.restorable_of_echoes hvalid hechoes hid (hrestore ▸ he)
  · intro hr σ send _ l s r m' ht' hrelayed
    rw [handle_forward l send s ht', hrelayed]
    exact conclude_echoes _ _ _ m' hvalid (hr.echoes hvalid hsame hechoes m')

/-- A query for the addresses of `a.` goes out as one for `A.`, and is answered with a name that is written out and a record
whose owner is a pointer to it. The name can be restored, so the client reads its own question. -/
theorem relayed_reply_restored :
    let octets : Octets := #[66, 66, 1, 0, 0, 1, 0, 0, 0, 0, 0, 0, 1, 97, 0, 0, 1, 0, 1]
    let q : Question := ⟨⟨[1, 97, 0]⟩, RRType.a, RRClass.internet⟩
    let response : Octets := #[0, 7, 129, 128, 0, 1, 0, 1, 0, 0, 0, 0, 1, 65, 0, 0, 1, 0, 1, 192, 12, 0, 1, 0, 1, 0, 0, 0, 60,
      0, 4, 192, 0, 2, 1]
    (∃ m, triage octets (.v4 2 53) = .forward m q) ∧ Forwarder.Answered ⟨octets, q, .v4 2 53, .relay⟩ response ∧
      ∀ (σ : Type) (send : Sender σ), send.Genuine → ∀ (l : Listener) (s : σ) (r : Received) (m : Message),
        triage r.octets r.client.canonical = .forward m q → l.relayed send s r q = .ok response →
        ∃ reply, (l.handle send s r).1 = some reply ∧ Reply.Echoes reply q := by
  intro octets q response
  have ht : triage octets (.v4 2 53) = .forward ⟨octets, by decide⟩ q := by cbv
  have ha : Forwarder.Answered ⟨octets, q, .v4 2 53, .relay⟩ response := by
    refine (Forwarder.answered_iff _ _).2 ⟨.v4 1 53, ⟨7, .noError, false, some ⟨⟨[1, 65, 0]⟩, RRType.a, RRClass.internet⟩,
      [⟨⟨[1, 65, 0]⟩, RRType.a, RRClass.internet, Ttl.ofWire 60, [192, 0, 2, 1]⟩], .v4 1 53⟩, true, fun _ => true, ?_, ?_, ?_⟩
    · cbv
    · decide
    · cbv
  let m : Message := ⟨response.overwrite 12 [1, 97, 0], by decide⟩
  have hnamed : m.octets = Reply.named q response := by cbv
  have hs : Name.Spelled m.octets 12 12 [] [[97]] 15 := by
    refine (Name.spelled_nil_iff _ _ _ _ _).2 ⟨?_, rfl, rfl⟩
    simp [Name.ValidLabel, Name.maxLabelLength]
  have howner : Name.Spelled m.octets 19 19 [12] [[97]] 21 :=
    .pointer (show m.octets[19]? = some 192 from rfl) (show m.octets[20]? = some 12 from rfl) (by decide) rfl (by decide) hs
  have hr : Reply.Restorable q response := by
    refine ⟨Or.inr ⟨[[65]], 15, ?_⟩, m, hnamed, ?_, q, ⟨m, 19⟩, by cbv, ?_⟩
    · refine (Name.spelled_nil_iff _ _ _ _ _).2 ⟨?_, rfl, rfl⟩
      simp [Name.ValidLabel, Name.maxLabelLength]
    · intro runs labels stop h
      obtain ⟨rfl, -, -⟩ := hs.unique h
      exact List.forall_mem_nil _
    · have hrecord : (Reader.mk m 19).readRecord =
          .ok (⟨⟨[1, 97, 0]⟩, RRType.a, RRClass.internet, Ttl.ofWire 60, [192, 0, 2, 1]⟩, ⟨m, 35⟩) := by cbv
      have hcount : m.answerCount.toNat = 1 := by cbv
      rw [hcount]
      refine ⟨fun runs labels stop h => ?_, _, _, hrecord, trivial⟩
      obtain ⟨rfl, -, -⟩ := howner.unique h
      decide
  exact ⟨⟨_, ht⟩, ha, (relayed_reply_echoes_iff octets (.v4 2 53) _ q response ht ha).2 hr⟩

/-- A query for the addresses of `a.` goes out as one for `A.`, and is answered with a name whose null label is a pointer into the
header. The name is not restored, and the client reads another question than its own. -/
theorem relayed_reply_recased :
    let octets : Octets := #[66, 66, 1, 0, 0, 1, 0, 0, 0, 0, 0, 0, 1, 97, 0, 0, 1, 0, 1]
    let q : Question := ⟨⟨[1, 97, 0]⟩, RRType.a, RRClass.internet⟩
    let response : Octets := #[0, 7, 129, 128, 0, 1, 0, 0, 0, 0, 0, 0, 1, 65, 192, 6, 0, 1, 0, 1]
    let reply : Octets := #[66, 66, 129, 128, 0, 1, 0, 0, 0, 0, 0, 0, 1, 65, 192, 6, 0, 1, 0, 1]
    let c : Conditions := ⟨0, ⟨fun _ => ⟨7, by decide⟩, fun _ => true⟩, none, fun _ => [.datagram response (.v4 1 53)]⟩
    let f : { f : Forwarder // f.Reachable } := ⟨.start ⟨1000, 1, true⟩ ⟨64, none⟩, _, _, [], rfl⟩
    let l : Listener := ⟨⟨.v4 1 53, .udp⟩, none, none, .servFail, false⟩
    let r : Received := ⟨octets, .v4 2 53, .udp⟩
    (∃ m, triage octets (.v4 2 53) = .forward m q) ∧ (Forwarder.sender fun _ _ => c).Genuine ∧
      l.relayed (Forwarder.sender fun _ _ => c) f r q = .ok response ∧
      (l.handle (Forwarder.sender fun _ _ => c) f r).1 = some reply ∧ ¬Reply.Echoes reply q := by
  intro octets q response reply c f l r
  refine ⟨⟨⟨octets, by decide⟩, by cbv⟩, Forwarder.sender_genuine _, by cbv, by cbv, fun h => ?_⟩
  obtain ⟨answer, hp, hq⟩ := h (.v4 1 53)
  have hread : Response.parse? reply (.v4 1 53) = .ok ⟨0x4242, .noError, false,
      some ⟨⟨[1, 65, 0]⟩, RRType.a, RRClass.internet⟩, [], .v4 1 53⟩ := by cbv
  have hne : (⟨⟨[1, 65, 0]⟩, RRType.a, RRClass.internet⟩ : Question) ≠ q := by decide
  rw [hread] at hp
  cases hp
  exact hne (Option.some.inj hq)

end Listener

end DnsRelay
