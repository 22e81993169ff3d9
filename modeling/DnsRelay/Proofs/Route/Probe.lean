import DnsRelay.Proofs.Forward.Sending
import DnsRelay.Proofs.Listener.Attempts
import DnsRelay.Proofs.Name.Walk

/-!
# What a probe asks

A probe is written once, with the id zero, and changed in place before it is sent: it gets an id, and its name another pattern
of cases. Both changes lead from the octets of one `Probe.draft` to those of another, so whatever the id and the cases are,
the message asks what it should (`Probe.Asks`). The question that is registered for a probe is therefore the one that is sent.
-/

namespace DnsRelay

namespace Probe

/-- A message is a query that asks for the start of authority of a name, and for recursion: it has one question and no records, and
ends behind the question. -/
structure Asks (m : Message) (id : UInt16) (name : Name) : Prop where
  id : m.id = id
  isResponse : m.isResponse = false
  opcode : m.opcode = .query
  truncated : m.truncated = false
  recursionDesired : m.recursionDesired = true
  questionCount : m.questionCount = 1
  answerCount : m.answerCount = 0
  authorityCount : m.authorityCount = 0
  additionalCount : m.additionalCount = 0
  reads : (Reader.ofMessage m).readQuestion = .ok (⟨name, RRType.soa, RRClass.internet⟩, ⟨m, m.octets.size⟩)

/-! ## The octets of a probe -/

/-- The header of a probe: behind the id the bit for recursion is set, and one question is counted. -/
theorem header_draft (id : UInt16) (name : Name) :
    (draft id name).header = Octets.ofU16 id ++ [1, 0, 0, 1, 0, 0, 0, 0, 0, 0] := by
  have hflags : Draft.flags false Opcode.query.toOctet false true = 1 := by decide
  have hcodes : Draft.codes false Rcode.noError.toOctet = 0 := by decide
  have hone : Octets.ofU16 (UInt16.ofNat 1) = [0, 1] := by decide
  have hzero : Octets.ofU16 (UInt16.ofNat 0) = [0, 0] := by decide
  simp only [Draft.header, draft, List.length_singleton, List.length_nil, hflags, hcodes, hone, hzero, List.append_assoc,
    List.cons_append, List.nil_append]

/-- The octets of a probe: the id, the rest of the header, the name, and the type and the class that are asked for. -/
theorem octets_draft (id : UInt16) (name : Name) :
    (draft id name).octets = Octets.ofU16 id ++ [1, 0, 0, 1, 0, 0, 0, 0, 0, 0] ++ name.wire ++ [0, 6, 0, 1] := by
  have hbody : (draft id name).body = name.wire ++ [0, 6, 0, 1] := by
    have htype : Octets.ofU16 RRType.soa.code ++ Octets.ofU16 RRClass.internet.code = [0, 6, 0, 1] := rfl
    simp only [Draft.body, draft, question, Question.pieces, List.flatMap_cons, List.flatMap_nil, List.flatten_cons,
      List.flatten_nil, List.append_nil, htype]
  rw [Draft.octets, header_draft, hbody, ← List.append_assoc]

/-- A probe has sixteen octets besides its name. -/
theorem length_octets_draft (id : UInt16) (name : Name) : (draft id name).octets.length = 16 + name.wire.length := by
  rw [octets_draft]
  simp only [List.length_append, Octets.length_ofU16, List.length_cons, List.length_nil]
  omega

section Changes

variable {octets : Octets} {id : UInt16} {name : Name} (h : octets.toList = (draft id name).octets)
include h

/-- Setting the id makes a probe one under this id. -/
theorem toList_setId (id' : UInt16) : (octets.setId id').toList = (draft id' name).octets := by
  have hsize : 2 ≤ octets.size := by
    rw [← Array.length_toList, h, length_octets_draft]
    omega
  have hparts : octets.toList = [] ++ Octets.ofU16 id ++ (draft id name).octets.drop 2 := h
  rw [Octets.setId, if_pos hsize]
  exact Octets.toList_overwrite hparts rfl

/-- A name that is the same can be written over that of a probe, and makes it a probe for this name. -/
theorem exists_overwriteName? {name' : Name} (hsame : name'.same name = true) :
    ∃ octets', octets.overwriteName? name' = some octets' ∧ octets'.toList = (draft id name').octets := by
  have hlen : name'.wire.length = name.wire.length := Name.length_of_same hsame
  have hsame' : name.same name' = true := (name.same_comm name').trans hsame
  rw [octets_draft] at h
  refine ⟨octets.overwrite headerSize name'.wire, ?_, ?_⟩
  · have hpresent : octets.slice? headerSize name'.wire.length = some name.wire := hlen ▸ Octets.slice?_of_toList h
    exact (Octets.overwriteName?_eq_some_iff _ _ _).2 ⟨rfl, name.wire, hpresent, hsame'⟩
  · rw [octets_draft]
    exact Octets.toList_overwrite h hlen

end Changes

/-- A message with the octets of a probe for a valid name asks what it should. -/
theorem asks_of_toList {m : Message} {id : UInt16} {name : Name} (hname : name.Valid)
    (h : m.octets.toList = (draft id name).octets) : Asks m id name := by
  have hvalid : (draft id name).Valid :=
    ⟨List.forall_mem_singleton.2 hname, List.forall_mem_nil _, Nat.le_of_ble_eq_true rfl, Nat.le_of_ble_eq_true rfl⟩
  have hreads := Draft.reads_of_octets hvalid h
  have hquestions : m.questionCount = 1 := UInt16.toNat_inj.1 hreads.questionCount
  have hanswers : m.answerCount = 0 := UInt16.toNat_inj.1 hreads.answerCount
  have hflags : m.headerOctet 2 = 1 := Draft.headerOctet_eq h (i := 2) (by rw [header_draft]; rfl)
  refine ⟨hreads.id, hreads.isResponse, ?_, hreads.truncated, hreads.recursionDesired, hquestions, hanswers,
    hreads.authorityCount, hreads.additionalCount, ?_⟩
  · rw [Message.opcode, hflags]
    decide
  · obtain ⟨r, hquestion, hrecords⟩ := hreads.reads
    have hone : (1 : UInt16).toNat = 1 := rfl
    rw [hquestions, hone, Reader.readQuestions_one] at hquestion
    -- there are no records, so where reading them ends is behind the question
    rw [hanswers] at hrecords
    cases hrecords
    have hstop : (draft id name).octets.length = m.octets.size := by rw [← h, Array.length_toList]
    rw [hstop] at hquestion
    cases hread : (Reader.ofMessage m).readQuestion with
    | error e =>
      rw [hread] at hquestion
      cases hquestion
    | ok found =>
      rw [hread] at hquestion
      cases found
      cases hquestion
      rfl

/-- Octets of a probe for a valid name are a message that asks what it should. -/
theorem exists_asks {octets : Octets} {id : UInt16} {name : Name} (hname : name.Valid)
    (h : octets.toList = (draft id name).octets) : ∃ m : Message, m.octets = octets ∧ Asks m id name := by
  have hheader : headerSize ≤ octets.size := by
    rw [← Array.length_toList, h, length_octets_draft, headerSize]
    omega
  exact ⟨⟨octets, hheader⟩, rfl, asks_of_toList hname h⟩

/-! ## Sending a probe -/

/-- The name that a probe is sent for: with some of its letters flipped, if that is wanted. -/
def sentName (wanted : Bool) (flip : Nat → Bool) (name : Name) : Name :=
  if wanted then (name.withCase flip).2 else name

/-- It is the same name. -/
theorem same_sentName (wanted : Bool) (flip : Nat → Bool) (name : Name) : (sentName wanted flip name).same name = true := by
  cases wanted with
  | false => exact name.same_refl
  | true => exact Name.same_withCase flip name

/-- The cases of a probe are randomized in its octets and in its question, if that is wanted. -/
theorem randomizeCase_probe {octets : Octets} {name : Name} (h : octets.toList = (draft 0 name).octets) (wanted : Bool)
    (flip : Nat → Bool) (client : Endpoint) :
    ∃ octets' : Octets, octets'.toList = (draft 0 (sentName wanted flip name)).octets ∧
      Forwarder.randomizeCase wanted flip ⟨octets, question name, client, .probe⟩ =
        (octets', question (sentName wanted flip name)) := by
  cases wanted with
  | false => exact ⟨octets, h, rfl⟩
  | true =>
    obtain ⟨octets', hover, hlist⟩ := exists_overwriteName? h (Name.same_withCase flip name)
    refine ⟨octets', hlist, ?_⟩
    have hname : (question name).qname = name := rfl
    simp only [Forwarder.randomizeCase, if_true, hname, hover]
    rfl

/-- A probe for a valid name that was sent asks the question that is registered. -/
theorem asks_of_sends {f f' : Forwarder} {now : Nat} {draws : Draws} {client server : Endpoint} {sent : Forwarder.Sent}
    {octets : Octets} {name : Name} (hname : name.Valid) (h : octets.toList = (draft 0 name).octets)
    (hs : f.Sends now draws ⟨octets, question name, client, .probe⟩ server sent f') :
    ∃ query m, f'.query? sent.handle = some query ∧ m.octets = sent.octets ∧
      query.question = question (sentName f.config.caseRandomization draws.flip name) ∧ Asks m query.id query.question.qname := by
  obtain ⟨octets', hlist, hcase⟩ := randomizeCase_probe h f.config.caseRandomization draws.flip client
  have hoctets := hs.octets
  rw [hcase] at hoctets
  obtain ⟨m, hm, hasks⟩ := exists_asks (hname.of_same (same_sentName f.config.caseRandomization draws.flip name))
    (toList_setId hlist sent.handle.id)
  have hquestion : (f.queryFor now draws ⟨octets, question name, client, .probe⟩ server sent.handle.id).question =
      question (sentName f.config.caseRandomization draws.flip name) := by
    rw [Forwarder.queryFor, hcase]
  refine ⟨_, m, hs.query?, hm.trans hoctets.symm, hquestion, ?_⟩
  rw [hquestion]
  exact hasks

/-- A probe for a valid name can be written, in at most 271 octets. Under any id, and with the name in any case, whichever is
set first, it asks for the start of authority of exactly this name and for nothing else. If it is sent, the octets sent ask
the question of the query that is pending then, octet for octet. Every listener that probes for the name sends this message,
once. -/
theorem probe_exact (n : Name) (hn : n.Valid) :
    ∃ octets, message (question n) = .ok octets ∧ octets.size = 16 + n.wire.length ∧ octets.size ≤ 271 ∧
    (∀ id v, v.same n = true → ∃ m, Asks m id v ∧ (octets.setId id).overwriteName? v = some m.octets ∧
      (octets.overwriteName? v).map (·.setId id) = some m.octets) ∧
    (∀ f : Forwarder, f.Reachable → ∀ now draws failure client resolver sent f',
      f.send now draws failure ⟨octets, question n, client, .probe⟩ resolver = (.ok sent, f') →
      ∃ query m, f'.query? sent.handle = some query ∧ m.octets = sent.octets ∧
        query.question = question (sentName f.config.caseRandomization draws.flip n) ∧ Asks m query.id query.question.qname) ∧
    ∀ (σ : Type) (l : Listener) (p : Probing) (send : Sender σ) (s : σ) (client : Endpoint) (before : List Attempt),
      let out : Outbound := ⟨octets, question n, client, .probe⟩
      (l.probe p send.recorded (before, s) n client).2.2.2.1 = before ++ [⟨p.resolver, out, (send s p.resolver out).1⟩] := by
  obtain ⟨octets, hmessage, hlist⟩ := exists_message hn
  have hsize : octets.size = 16 + n.wire.length := by rw [← Array.length_toList, hlist, length_octets_draft]
  have hlength : n.wire.length ≤ 255 := by
    obtain ⟨-, -, -, hle⟩ := hn
    exact hle
  refine ⟨octets, hmessage, hsize, by omega, ?_, ?_, ?_⟩
  · intro id v hsame
    obtain ⟨octets', hover, hlist'⟩ := exists_overwriteName? (toList_setId hlist id) hsame
    obtain ⟨m, rfl, hasks⟩ := exists_asks (hn.of_same hsame) hlist'
    exact ⟨m, hasks, hover, Octets.overwriteName?_setId octets id v ▸ hover⟩
  · intro f hf now draws failure client resolver sent f' hsend
    exact asks_of_sends hn hlist (hf.coherent.send_ok hsend)
  · intro σ l p send s client before out
    obtain ⟨log, hprobe⟩ := l.probe_eq p send.recorded (before, s) hmessage client rfl
    rw [hprobe]
    rfl

/-- A probe for the longest name, in small letters and under the id 0x1234. -/
theorem probe_exact_longest :
    let n := Name.longest 0x41
    let v := Name.longest 0x61
    n.Valid ∧ v.same n = true ∧ ∃ octets m, message (question n) = .ok octets ∧ octets.size = 271 ∧ Asks m 0x1234 v ∧
      (octets.setId 0x1234).overwriteName? v = some m.octets := by
  intro n v
  have hn : n.Valid := Name.valid_longest 0x41
  have hsame : v.same n = true := by decide +kernel
  have hlength : n.wire.length = 255 := Name.length_longest 0x41
  obtain ⟨octets, hmessage, hsize, -, hpatched, -⟩ := probe_exact n hn
  obtain ⟨m, hasks, hover, -⟩ := hpatched 0x1234 v hsame
  rw [hlength] at hsize
  exact ⟨hn, hsame, octets, m, hmessage, hsize, hasks, hover⟩

end Probe

end DnsRelay
