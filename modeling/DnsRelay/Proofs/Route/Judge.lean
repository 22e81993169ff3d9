import DnsRelay.Proofs.Forward.Answered
import DnsRelay.Proofs.Route

/-!
# How replies to probes are judged

A reply is judged without reading it as a response: only its questions and its first answer are looked at, and what cannot be
read is not held against the name. The main result, `Probe.judge_exact`, says that this comes to the same record as reading
the whole response does.
-/

namespace DnsRelay

namespace Probe

/-- A reply to a probe is found forged iff its header announces an answer, all the questions that it announces can be read,
and the record behind them can be read and is an address. If the reply can be read as a response, and every reply that is
delivered can, this record is the first answer of the response. -/
theorem judge_exact :
    (∀ (octets : Octets) (source : Endpoint) (response : Response), Response.parse? octets source = .ok response →
      (judge octets = .trusted ↔ ∃ x rest, response.answers = x :: rest ∧ x.type = RRType.a) ∧
      ∀ x, FirstAnswer octets x ↔ response.answers.head? = some x) ∧
    (∀ octets : Octets, judge octets = .trusted ↔ ∃ m qs r x r', Message.ofOctets? octets = some m ∧
      1 ≤ m.answerCount.toNat ∧ (Reader.ofMessage m).readQuestions m.questionCount.toNat = .ok (qs, r) ∧
      qs.length = m.questionCount.toNat ∧ r.readRecord = .ok (x, r') ∧ x.type = RRType.a) ∧
    ∀ (out : Outbound) (octets : Octets), Forwarder.Answered out octets →
      ∃ source response, Response.parse? octets source = .ok response ∧
        (judge octets = .trusted ↔ ∃ x rest, response.answers = x :: rest ∧ x.type = RRType.a) := by
  have hjudge {octets : Octets} {source : Endpoint} {response : Response} (h : Response.parse? octets source = .ok response) :
      judge octets = .trusted ↔ ∃ x rest, response.answers = x :: rest ∧ x.type = RRType.a := by
    rw [judge_eq_trusted_iff h]
    cases response.answers <;> simp
  refine ⟨fun octets source response h => ⟨hjudge h, firstAnswer_iff h⟩, fun octets => ?_, fun out octets h => ?_⟩
  · rw [judge_eq_trusted_iff_firstAnswer]
    constructor
    · rintro ⟨x, ⟨m, qs, r, r', hm, hone, hqs, hlength, hx⟩, htype⟩
      exact ⟨m, qs, r, x, r', hm, hone, hqs, hlength, hx, htype⟩
    · rintro ⟨m, qs, r, x, r', hm, hone, hqs, hlength, hx, htype⟩
      exact ⟨x, ⟨m, qs, r, r', hm, hone, hqs, hlength, hx⟩, htype⟩
  · obtain ⟨source, response, -, -, hp, -⟩ := (Forwarder.answered_iff out octets).1 h
    exact ⟨source, response, hp, hjudge hp⟩

/-- A reply with one question, which answers a probe for `a.`, and one with a second question in front of the same answer; the
name in front of the address is a pointer. The first is delivered, and both are judged by the address. -/
theorem judge_exact_forged :
    let forged : Octets := #[0, 7, 129, 128, 0, 1, 0, 1, 0, 0, 0, 0, 1, 97, 0, 0, 6, 0, 1, 192, 12, 0, 1, 0, 1, 0, 0, 0, 60, 0, 4,
      192, 0, 2, 1]
    let twice : Octets := #[0, 7, 129, 128, 0, 2, 0, 1, 0, 0, 0, 0, 1, 97, 0, 0, 6, 0, 1, 192, 12, 0, 6, 0, 1, 192, 12, 0, 1, 0, 1,
      0, 0, 0, 60, 0, 4, 192, 0, 2, 1]
    let small : Name := ⟨[1, 97, 0]⟩
    let x : Record := ⟨small, RRType.a, RRClass.internet, Ttl.ofWire 60, [192, 0, 2, 1]⟩
    let out : Outbound := ⟨#[], question small, .v4 4 53, .probe⟩
    Response.parse? twice (.v4 3 53) = .ok ⟨7, .noError, false, none, [x], .v4 3 53⟩ ∧ judge twice = .trusted ∧
      Forwarder.Answered out forged ∧ ∃ source response, Response.parse? forged source = .ok response ∧
        (judge forged = .trusted ↔ ∃ y rest, response.answers = y :: rest ∧ y.type = RRType.a) := by
  intro forged twice small x out
  have htwice : Response.parse? twice (.v4 3 53) = .ok ⟨7, .noError, false, none, [x], .v4 3 53⟩ := by cbv
  have hforged : Response.parse? forged (.v4 3 53) = .ok ⟨7, .noError, false, some (question small), [x], .v4 3 53⟩ := by cbv
  have hanswered : Forwarder.Answered out forged :=
    (Forwarder.answered_iff out forged).2 ⟨.v4 3 53, _, false, fun _ => false, hforged, by decide, rfl⟩
  have hjudged := (judge_exact.1 twice _ _ htwice).1.2 ⟨x, [], rfl, rfl⟩
  exact ⟨htwice, hjudged, hanswered, judge_exact.2.2 out forged hanswered⟩

end Probe

end DnsRelay
