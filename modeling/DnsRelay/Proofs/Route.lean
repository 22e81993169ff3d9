import DnsRelay.Response
import DnsRelay.Route
import DnsRelay.Proofs.Message.Written
import DnsRelay.Proofs.Validation

/-!
# What is known about routes

A route table does not look at the case of a name (`RouteTable.get?_of_same`), and a route that is remembered is that of its own
name and of no other (`RouteTable.get?_insert`). A probe for a valid name can always be written, and says what `Probe.draft` says
(`Probe.exists_message`); a reply to it that can be read is judged by the type of its first answer (`Probe.judge_eq_trusted_iff`).
-/

namespace DnsRelay

namespace RouteTable

variable {t : RouteTable} {name : Name}

/-- The route of a name does not depend on its case. -/
theorem get?_of_same (t : RouteTable) {a b : Name} (h : a.same b = true) : t.get? a = t.get? b := by
  have hsame : (fun e : Name × Route => e.1.same a) = fun e => e.1.same b := by
    funext e
    rw [Name.same_comm, Name.same_congr h, Name.same_comm]
  rw [get?, get?, hsame]

/-- A full table refuses a name that it does not know, and stays; otherwise it takes the name in. -/
theorem insert_cases (t : RouteTable) (name : Name) (route : Route) :
    (¬(t.get? name ≠ none ∨ t.size < t.capacity) ∧ t.insert name route = (false, t)) ∨
      ((t.get? name ≠ none ∨ t.size < t.capacity) ∧ t.insert name route =
        (true, { t with routes := (name.lower, route) :: t.routes.filter fun e => !e.1.same name })) := by
  by_cases hfull : t.capacity ≤ t.size ∧ t.get? name = none
  · refine Or.inl ⟨?_, if_pos hfull⟩
    rintro (hknown | hroom)
    · exact hknown hfull.2
    · exact Nat.not_lt.2 hfull.1 hroom
  · refine Or.inr ⟨?_, if_neg hfull⟩
    by_cases hname : t.get? name = none
    · exact Or.inr (Nat.lt_of_not_le fun hle => hfull ⟨hle, hname⟩)
    · exact Or.inl hname

/-- A route is remembered iff the name is or there is room for it. -/
theorem insert_eq_true_iff (t : RouteTable) (name : Name) (route : Route) :
    (t.insert name route).1 = true ↔ t.get? name ≠ none ∨ t.size < t.capacity := by
  rcases t.insert_cases name route with ⟨h, he⟩ | ⟨h, he⟩ <;> simp [he, h]

/-- A table that refuses a name stays. -/
theorem insert_of_refused {route : Route} (h : (t.insert name route).1 = false) : (t.insert name route).2 = t := by
  rcases t.insert_cases name route with ⟨-, he⟩ | ⟨-, he⟩
  · rw [he]
  · rw [he] at h
    cases h

/-- Dropping a name from a list leaves every name that is not the same. -/
theorem find?_filter_of_not_same {other : Name} (h : name.same other = false) (routes : List (Name × Route)) :
    (routes.filter fun e => !e.1.same name).find? (·.1.same other) = routes.find? (·.1.same other) := by
  simp only [List.find?_filter]
  congr 1
  funext e
  cases he : e.1.same name with
  | true => simp [Name.same_congr he, h]
  | false => simp

/-- What a table takes in is the route of the name, in every case of its letters; the other names keep theirs. -/
theorem get?_insert {route : Route} (h : (t.insert name route).1 = true) (other : Name) :
    (t.insert name route).2.get? other = if name.same other then some route else t.get? other := by
  rcases t.insert_cases name route with ⟨-, he⟩ | ⟨-, he⟩
  · rw [he] at h
    cases h
  · have hlower : name.lower.same other = name.same other := Name.same_congr name.same_lower other
    cases hsame : name.same other with
    | true => simp [get?, he, hlower, hsame]
    | false => simp [get?, he, hlower, hsame, find?_filter_of_not_same hsame]

end RouteTable

namespace Probe

/-- What a probe for a name says under an id: it asks for the start of authority of the name, and for recursion. -/
def draft (id : UInt16) (name : Name) : Draft :=
  ⟨id, false, .query, false, true, false, .noError, [question name], []⟩

/-- A probe for a valid name can be written, and says what it is to say under the id zero. -/
theorem exists_message {name : Name} (h : name.Valid) :
    ∃ octets, message (question name) = .ok octets ∧ octets.toList = (draft 0 name).octets := by
  have hq : (question name).qname.Valid := h
  have hsize : (Array.replicate bufferSize (0 : UInt8)).size = bufferSize := Array.size_replicate
  have hheader : headerSize ≤ bufferSize := by decide
  obtain ⟨w, hmake, hlimit, hblank⟩ := Writer.exists_make_written (hsize.symm ▸ hheader) hheader
  rw [hsize, Nat.min_self] at hlimit
  have hdesired : (w.setRecursionDesired true).Written (Draft.blank.after (.setRecursionDesired true)) _ :=
    hblank.answer (.setRecursionDesired true)
  have hroom : (w.setRecursionDesired true).limit = 512 := hlimit
  rcases hdesired.addQuestion_cases (question name) with ⟨-, -, -, w', hadd, hwritten⟩ | ⟨hnot, -⟩
  · refine ⟨w'.octets, ?_, hwritten.octets_eq⟩
    simp only [message, hmake, hadd, bind, Except.bind, pure, Except.pure]
  · exact absurd ⟨rfl, by decide, hroom ▸ Question.length_pieces_le hq⟩ hnot

/-- The header announces an answer, and the record behind the questions that it announces is this one. -/
def FirstAnswer (octets : Octets) (x : Record) : Prop :=
  ∃ m qs r r', Message.ofOctets? octets = some m ∧ 1 ≤ m.answerCount.toNat ∧
    (Reader.ofMessage m).readQuestions m.questionCount.toNat = .ok (qs, r) ∧ qs.length = m.questionCount.toNat ∧
    r.readRecord = .ok (x, r')

/-- A type is found iff it is that of the first answer. -/
theorem firstAnswerType?_eq_some_iff (octets : Octets) (type : RRType) :
    firstAnswerType? octets = .ok (some type) ↔ ∃ x, FirstAnswer octets x ∧ x.type = type := by
  unfold firstAnswerType? Reader.ofOctets?
  constructor
  · intro h
    cases hm : Message.ofOctets? octets with
    | none =>
      rw [hm] at h
      cases h
    | some m =>
      rw [hm] at h
      have hmessage : (Reader.ofMessage m).message = m := rfl
      simp only [bind, Except.bind, pure, Except.pure, hmessage] at h
      by_cases hzero : m.answerCount = 0
      · rw [if_pos hzero] at h
        cases h
      · rw [if_neg hzero] at h
        split at h
        · cases h
        · rename_i found hqs
          split at h
          · cases h
          · rename_i read hx
            cases h
            have hone : 1 ≤ m.answerCount.toNat := Nat.one_le_iff_ne_zero.2 fun h => hzero (UInt16.toNat_inj.1 h)
            exact ⟨read.1, ⟨m, found.1, found.2, read.2, hm, hone, hqs, Reader.length_readQuestions hqs, hx⟩, rfl⟩
  · rintro ⟨x, ⟨m, qs, r, r', hm, hone, hqs, -, hx⟩, rfl⟩
    have hzero : ¬m.answerCount = 0 := by
      intro hzero
      rw [hzero] at hone
      cases hone
    have hmessage : (Reader.ofMessage m).message = m := rfl
    simp only [hm, bind, Except.bind, pure, Except.pure, hmessage, if_neg hzero, hqs, hx]

/-- A reply is held against a name iff its first answer is an address. -/
theorem judge_eq_trusted_iff_firstAnswer (octets : Octets) :
    judge octets = .trusted ↔ ∃ x, FirstAnswer octets x ∧ x.type = RRType.a := by
  rw [← firstAnswerType?_eq_some_iff, judge]
  split
  · rename_i type htype
    rw [htype]
    simp
  · rename_i hother
    simp only [reduceCtorEq, false_iff]
    exact hother _

/-- The first answer that a probe looks at is the first one of the response that is read, if one can be. -/
theorem firstAnswer_iff {octets : Octets} {source : Endpoint} {response : Response}
    (h : Response.parse? octets source = .ok response) (x : Record) :
    FirstAnswer octets x ↔ response.answers.head? = some x := by
  obtain ⟨m, qs, r, xs, r', hm, -, hqs, hxs, rfl⟩ := (Response.parse?_ok_iff _ _ _).1 h
  constructor
  · rintro ⟨m', qs', r₁, r₂, hm', hone, hqs', -, hx⟩
    rw [hm] at hm'
    cases hm'
    rw [hqs] at hqs'
    cases hqs'
    obtain ⟨n, hn⟩ := Nat.exists_eq_add_of_le' hone
    rw [hn] at hxs
    obtain ⟨y, _, ys, hy, -, rfl⟩ := (Reader.readRecords_succ_ok_iff _ _ _ _).1 hxs
    rw [hx] at hy
    cases hy
    rfl
  · intro hhead
    obtain ⟨rest, rfl⟩ := List.head?_eq_some_iff.1 hhead
    have hn : m.answerCount.toNat = rest.length + 1 := (Reader.length_readRecords hxs).symm
    rw [hn] at hxs
    obtain ⟨_, r₁, _, hx, -, he⟩ := (Reader.readRecords_succ_ok_iff _ _ _ _).1 hxs
    cases he
    exact ⟨m, qs, r, r₁, hm, by omega, hqs, Reader.length_readQuestions hqs, hx⟩

/-- A reply that can be read as a response is judged by the type of its first answer. -/
theorem judge_eq_trusted_iff {octets : Octets} {source : Endpoint} {response : Response}
    (h : Response.parse? octets source = .ok response) :
    judge octets = .trusted ↔ response.answers.head?.map (·.type) = some RRType.a := by
  simp only [judge_eq_trusted_iff_firstAnswer, firstAnswer_iff h, Option.map_eq_some_iff]

end Probe

end DnsRelay
