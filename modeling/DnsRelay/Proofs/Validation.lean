import DnsRelay.Validation
import DnsRelay.Proofs.Name.Case

/-!
# What the validator decides

`Validator.Passes` and `Validator.Fails` say what the checks of question, number of answers and addresses decide, the first
in one piece and the second check by check. For a response with the id and the source of its query they are the verdicts of
`Validator.validate`; any other response is turned away for its id or its source.
-/

namespace DnsRelay

/-- A response repeats the question of a query octet for octet. -/
def Response.Echoes (response : Response) (question : Question) : Prop :=
  response.question = some question

namespace Validator

/-- No answer to a relayed query holds a blocked address. -/
def Unblocked (v : Validator) (kind : QueryKind) (answers : List Record) : Prop :=
  kind = .relay → ∀ blocked, v.blocked = some blocked → ∀ x ∈ answers, ∀ a, x.address? = some a → blocked a = false

/-- A response passes the checks that come after those of id and source. -/
structure Passes (v : Validator) (response : Response) (query : PendingQuery) : Prop where
  echoes : response.Echoes query.question
  bounded : response.answers.length ≤ v.maxAnswers
  unblocked : v.Unblocked query.kind response.answers

/-- The first check that a response fails of those that come after id and source, with the reason given for it. -/
inductive Fails (v : Validator) (response : Response) (query : PendingQuery) : RejectReason → Prop where
  | recased {q : Question} : response.question = some q → q ≠ query.question → q.same query.question = true →
      Fails v response query .caseMismatch
  | misquoted : (∀ q, response.question = some q → q.same query.question = false) →
      Fails v response query .questionMismatch
  | overlong : response.Echoes query.question → v.maxAnswers < response.answers.length →
      Fails v response query (.tooManyAnswers response.answers.length)
  | blocked {blocked : Address → Bool} {before after : List Address} {a : Address} : response.Echoes query.question →
      response.answers.length ≤ v.maxAnswers → query.kind = .relay → v.blocked = some blocked →
      response.answers.filterMap Record.address? = before ++ a :: after → (∀ b ∈ before, blocked b = false) →
      blocked a = true → Fails v response query (.blockedAddress a)

end Validator

/-- A question is the same as itself. -/
theorem Question.same_refl (q : Question) : q.same q = true := by
  simp [Question.same, Name.same_refl]

namespace Validator

/-! ## Helpers: one check after another -/

namespace ValidatorAux

/-- The check of the question passes iff the question is repeated. -/
theorem checkQuestion_ok_iff (asked : Question) (answered : Option Question) :
    checkQuestion asked answered = .ok () ↔ answered = some asked := by
  cases answered with
  | none => simp [checkQuestion]
  | some q =>
    by_cases hq : q = asked
    · simp [checkQuestion, hq]
    · by_cases hs : q.same asked = true
      · simp [checkQuestion, hq, hs]
      · simp [checkQuestion, hq, hs]

/-- The check of the question tells a question in another case from any other. -/
theorem checkQuestion_error_iff (asked : Question) (answered : Option Question) (reason : RejectReason) :
    checkQuestion asked answered = .error reason ↔
      (∃ q, answered = some q ∧ q ≠ asked ∧ q.same asked = true ∧ reason = .caseMismatch) ∨
      ((∀ q, answered = some q → q.same asked = false) ∧ reason = .questionMismatch) := by
  cases answered with
  | none => simpa [checkQuestion] using eq_comm
  | some q =>
    by_cases hq : q = asked
    · simp [checkQuestion, hq, Question.same_refl]
    · by_cases hs : q.same asked = true
      · simpa [checkQuestion, hq, hs] using eq_comm
      · simpa [checkQuestion, hq, hs] using eq_comm

/-- The check of the addresses passes iff a relayed query got no blocked address. -/
theorem checkAddresses_ok_iff (v : Validator) (kind : QueryKind) (answers : List Record) :
    v.checkAddresses kind answers = .ok () ↔ v.Unblocked kind answers := by
  unfold checkAddresses Unblocked
  split
  · rename_i b hb
    rw [hb]
    split
    · rename_i a ha
      have hmem := List.mem_of_find?_eq_some ha
      obtain ⟨x, hx, hxa⟩ := List.mem_filterMap.1 hmem
      constructor
      · nofun
      · intro h
        have hf := h rfl b rfl x hx a hxa
        rw [List.find?_some ha] at hf
        cases hf
    · rename_i hn
      simp only [true_iff]
      rintro - _ ⟨rfl⟩ x hx a ha
      simpa using List.find?_eq_none.1 hn a (List.mem_filterMap.2 ⟨x, hx, ha⟩)
  · rename_i hne
    simp only [true_iff]
    intro hk b hb
    exact absurd hk (hne b hb)

/-- The check of the addresses names the first blocked one. -/
theorem checkAddresses_error_iff (v : Validator) (kind : QueryKind) (answers : List Record) (reason : RejectReason) :
    v.checkAddresses kind answers = .error reason ↔ kind = .relay ∧ ∃ blocked, v.blocked = some blocked ∧
      ∃ before a after, answers.filterMap Record.address? = before ++ a :: after ∧
        (∀ b ∈ before, blocked b = false) ∧ blocked a = true ∧ reason = .blockedAddress a := by
  have hfind : ∀ (blocked : Address → Bool) (a : Address), firstBlocked? blocked answers = some a ↔ ∃ before after,
      answers.filterMap Record.address? = before ++ a :: after ∧ (∀ b ∈ before, blocked b = false) ∧
        blocked a = true := by
    intro blocked a
    rw [firstBlocked?, List.find?_eq_some_iff_append]
    constructor
    · rintro ⟨ha, before, after, he, hb⟩
      exact ⟨before, after, he, by simpa using hb, ha⟩
    · rintro ⟨before, after, he, hb, ha⟩
      exact ⟨ha, before, after, he, by simpa using hb⟩
  unfold checkAddresses
  split
  · rename_i b hb
    rw [hb]
    constructor
    · split
      · rename_i a ha
        rintro ⟨rfl⟩
        obtain ⟨before, after, he, hbefore, hba⟩ := (hfind b a).1 ha
        exact ⟨rfl, b, rfl, before, a, after, he, hbefore, hba, rfl⟩
      · nofun
    · rintro ⟨-, _, ⟨rfl⟩, before, a, after, he, hbefore, hba, rfl⟩
      rw [(hfind b a).2 ⟨before, after, he, hbefore, hba⟩]
  · rename_i hne
    constructor
    · nofun
    · rintro ⟨hk, b, hb, -⟩
      exact absurd hk (hne b hb)

end ValidatorAux

open ValidatorAux

/-! ## The verdict -/

/-- For a response with the id and the source of its query, only the later checks count. -/
theorem validate_of_matching (v : Validator) (response : Response) (query : PendingQuery) (hid : response.id = query.id)
    (hsource : query.server.canonical = response.source.canonical) :
    v.validate response query = (do
      checkQuestion query.question response.question
      if v.maxAnswers < response.answers.length then .error (.tooManyAnswers response.answers.length)
      else v.checkAddresses query.kind response.answers) := by
  simp [validate, hid, hsource]

/-- A response with the id and the source of its query is accepted iff it passes. -/
theorem validate_ok_of_matching (v : Validator) (response : Response) (query : PendingQuery)
    (hid : response.id = query.id) (hsource : query.server.canonical = response.source.canonical) :
    v.validate response query = .ok () ↔ v.Passes response query := by
  rw [validate_of_matching v response query hid hsource]
  cases hq : checkQuestion query.question response.question with
  | error reason =>
    constructor
    · nofun
    · intro h
      rw [(checkQuestion_ok_iff _ _).2 h.echoes] at hq
      cases hq
  | ok _ =>
    have he := (checkQuestion_ok_iff _ _).1 hq
    by_cases hb : v.maxAnswers < response.answers.length
    · simp only [bind, Except.bind, if_pos hb]
      exact ⟨nofun, fun h => absurd hb (Nat.not_lt.2 h.bounded)⟩
    · simp only [bind, Except.bind, if_neg hb]
      rw [checkAddresses_ok_iff]
      exact ⟨fun h => ⟨he, Nat.not_lt.1 hb, h⟩, fun h => h.unblocked⟩

/-- A response with the id and the source of its query is rejected for the first check it fails. -/
theorem validate_error_of_matching (v : Validator) (response : Response) (query : PendingQuery)
    (hid : response.id = query.id) (hsource : query.server.canonical = response.source.canonical)
    (reason : RejectReason) :
    v.validate response query = .error reason ↔ v.Fails response query reason := by
  rw [validate_of_matching v response query hid hsource]
  cases hq : checkQuestion query.question response.question with
  | error r =>
    have hr := (checkQuestion_error_iff _ _ _).1 hq
    have hne : ¬response.Echoes query.question := by
      intro he
      rw [(checkQuestion_ok_iff _ _).2 he] at hq
      cases hq
    constructor
    · rintro ⟨rfl⟩
      rcases hr with ⟨q, he, hqne, hs, rfl⟩ | ⟨hs, rfl⟩
      · exact .recased he hqne hs
      · exact .misquoted hs
    · intro h
      cases h with
      | recased he hqne hs =>
        rw [(checkQuestion_error_iff _ _ _).2 (Or.inl ⟨_, he, hqne, hs, rfl⟩)] at hq
        cases hq
        rfl
      | misquoted hs =>
        rw [(checkQuestion_error_iff _ _ _).2 (Or.inr ⟨hs, rfl⟩)] at hq
        cases hq
        rfl
      | overlong he _ => exact absurd he hne
      | blocked he _ _ _ _ _ _ => exact absurd he hne
  | ok _ =>
    have he := (checkQuestion_ok_iff _ _).1 hq
    by_cases hb : v.maxAnswers < response.answers.length
    · simp only [bind, Except.bind, if_pos hb]
      constructor
      · rintro ⟨rfl⟩
        exact .overlong he hb
      · intro h
        cases h with
        | recased he' hqne _ => exact absurd (Option.some.inj (he'.symm.trans he)) hqne
        | misquoted hs => exact absurd (Question.same_refl query.question) (by simp [hs _ he])
        | overlong _ _ => rfl
        | blocked _ hle _ _ _ _ _ => exact absurd hb (Nat.not_lt.2 hle)
    · simp only [bind, Except.bind, if_neg hb]
      rw [checkAddresses_error_iff]
      constructor
      · rintro ⟨hk, b, hbl, before, a, after, hs, hbefore, hba, rfl⟩
        exact .blocked he (Nat.not_lt.1 hb) hk hbl hs hbefore hba
      · intro h
        cases h with
        | recased he' hqne _ => exact absurd (Option.some.inj (he'.symm.trans he)) hqne
        | misquoted hs => exact absurd (Question.same_refl query.question) (by simp [hs _ he])
        | overlong _ hlt => exact absurd hlt hb
        | blocked _ _ hk hbl hs hbefore hba => exact ⟨hk, _, hbl, _, _, _, hs, hbefore, hba, rfl⟩

/-- A response is accepted iff it has the id and the source of its query and passes. -/
theorem validate_ok_iff (v : Validator) (response : Response) (query : PendingQuery) :
    v.validate response query = .ok () ↔ response.id = query.id ∧
      query.server.canonical = response.source.canonical ∧ v.Passes response query := by
  by_cases hid : response.id = query.id
  · by_cases hsource : query.server.canonical = response.source.canonical
    · rw [validate_ok_of_matching v response query hid hsource]
      simp [hid, hsource]
    · simp [validate, hid, hsource]
  · simp [validate, hid]

/-- A response from another server is rejected for its source, whatever else it holds. -/
theorem validate_of_other_source (v : Validator) (response : Response) (query : PendingQuery)
    (hid : response.id = query.id) (hsource : query.server.canonical ≠ response.source.canonical) :
    v.validate response query =
      .error (.sourceMismatch query.server.canonical response.source.canonical) := by
  simp [validate, hid, hsource]

end Validator

end DnsRelay
