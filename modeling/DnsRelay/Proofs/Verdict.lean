import DnsRelay.Proofs.Blocklist
import DnsRelay.Proofs.Validation

/-!
# The verdict on a response

`Validator.Rejected` says for which reason a response is turned away, check by check, with the blocklist as a set of addresses.
The verdict of a validator is exact (`Validator.validate_exact`): a response is accepted iff it passes every check, and otherwise
the reason is the first check that fails. The blocklist counts only as a set of networks, and more networks block more.
-/

namespace DnsRelay

namespace Validator

/-- A response has the id of a query and comes from the server asked. -/
def Matches (response : Response) (query : PendingQuery) : Prop :=
  response.id = query.id ∧ query.server.canonical = response.source.canonical

/-- The checks that a response has passed when its addresses are looked at. -/
structure Sound (maxAnswers : Nat) (response : Response) (query : PendingQuery) : Prop where
  origin : Matches response query
  question : response.question = some query.question
  bounded : response.answers.length ≤ maxAnswers

/-- No answer among the records holds an address that is listed. -/
def Clean (blocklist : Blocklist) (answers : List Record) : Prop :=
  ∀ x ∈ answers, ∀ a, x.Holds a → ¬blocklist.Lists a

/-- The first check that a response fails, with the reason that is given for it. -/
inductive Rejected (maxAnswers : Nat) (blocklist : Blocklist) (response : Response) (query : PendingQuery) :
    RejectReason → Prop where
  | otherId : response.id ≠ query.id → Rejected maxAnswers blocklist response query (.idMismatch query.id response.id)
  | otherSource : response.id = query.id → query.server.canonical ≠ response.source.canonical →
      Rejected maxAnswers blocklist response query (.sourceMismatch query.server.canonical response.source.canonical)
  | recased {q : Question} : Matches response query → response.question = some q → q ≠ query.question →
      q.same query.question = true → Rejected maxAnswers blocklist response query .caseMismatch
  | misquoted : Matches response query → (∀ q, response.question = some q → q.same query.question = false) →
      Rejected maxAnswers blocklist response query .questionMismatch
  | overlong : Matches response query → response.question = some query.question → maxAnswers < response.answers.length →
      Rejected maxAnswers blocklist response query (.tooManyAnswers response.answers.length)
  | blocked {before after : List Record} {x : Record} {a : Address} : Sound maxAnswers response query →
      query.kind = .relay → response.answers = before ++ x :: after → Clean blocklist before → x.Holds a →
      blocklist.Lists a → Rejected maxAnswers blocklist response query (.blockedAddress a)

/-! ## Helpers: the later checks -/

section Later

variable {maxAnswers : Nat} {blocklist : Blocklist} {response : Response} {query : PendingQuery}

/-- No answer to a relayed query holds a blocked address iff the answers are clean. -/
theorem unblocked_iff (kind : QueryKind) (answers : List Record) :
    (Validator.mk maxAnswers (some blocklist.blocks)).Unblocked kind answers ↔ (kind = .relay → Clean blocklist answers) := by
  simp [Unblocked, Clean, Record.address?_eq_some_iff, Blocklist.blocks_eq_false_iff]

/-- The addresses of answers begin with some that are not blocked and one that is iff so do the answers. -/
theorem exists_blocked_iff (answers : List Record) (a : Address) :
    (∃ before after, answers.filterMap Record.address? = before ++ a :: after ∧
        (∀ b ∈ before, blocklist.blocks b = false) ∧ blocklist.blocks a = true) ↔
      ∃ before x after, answers = before ++ x :: after ∧ Clean blocklist before ∧ x.Holds a ∧ blocklist.Lists a := by
  constructor
  · rintro ⟨before, after, he, hbefore, ha⟩
    obtain ⟨front, rest, rfl, rfl, hrest⟩ := List.filterMap_eq_append_iff.1 he
    obtain ⟨skipped, x, back, rfl, hskipped, hx, -⟩ := List.filterMap_eq_cons_iff.1 hrest
    refine ⟨front ++ skipped, x, back, (List.append_assoc ..).symm, ?_, (Record.address?_eq_some_iff x a).1 hx,
      (blocklist.blocks_iff a).1 ha⟩
    intro y hy b hb
    rw [← Record.address?_eq_some_iff] at hb
    rcases List.mem_append.1 hy with hy | hy
    · exact (blocklist.blocks_eq_false_iff b).1 (hbefore b (List.mem_filterMap.2 ⟨y, hy, hb⟩))
    · rw [hskipped y hy] at hb
      cases hb
  · rintro ⟨before, x, after, rfl, hclean, hx, ha⟩
    refine ⟨before.filterMap Record.address?, after.filterMap Record.address?, ?_, ?_, (blocklist.blocks_iff a).2 ha⟩
    · rw [List.filterMap_append, List.filterMap_cons_some ((Record.address?_eq_some_iff x a).2 hx)]
    · intro b hb
      obtain ⟨y, hy, hyb⟩ := List.mem_filterMap.1 hb
      exact (blocklist.blocks_eq_false_iff b).2 (hclean y hy b ((Record.address?_eq_some_iff y b).1 hyb))

/-- A response with the id and the source of its query fails a later check iff it is rejected for it. -/
theorem fails_iff (h : Matches response query) (reason : RejectReason) :
    (Validator.mk maxAnswers (some blocklist.blocks)).Fails response query reason ↔
      Rejected maxAnswers blocklist response query reason := by
  constructor
  · intro hfails
    cases hfails with
    | recased hq hne hsame => exact .recased h hq hne hsame
    | misquoted hq => exact .misquoted h hq
    | overlong hq hlt => exact .overlong h hq hlt
    | blocked hq hle hkind hlist hsplit hbefore ha =>
      cases hlist
      obtain ⟨before, x, after, hanswers, hclean, hx, hlists⟩ :=
        (exists_blocked_iff _ _).1 ⟨_, _, hsplit, hbefore, ha⟩
      exact .blocked ⟨h, hq, hle⟩ hkind hanswers hclean hx hlists
  · intro hrejected
    cases hrejected with
    | otherId hne => exact absurd h.1 hne
    | otherSource _ hne => exact absurd h.2 hne
    | recased _ hq hne hsame => exact .recased hq hne hsame
    | misquoted _ hq => exact .misquoted hq
    | overlong _ hq hlt => exact .overlong hq hlt
    | blocked hsound hkind hanswers hclean hx hlists =>
      obtain ⟨before, after, hsplit, hbefore, ha⟩ :=
        (exists_blocked_iff _ _).2 ⟨_, _, _, hanswers, hclean, hx, hlists⟩
      exact .blocked hsound.question hsound.bounded hkind rfl hsplit hbefore ha

end Later

/-! ## Both verdicts -/

section Verdicts

variable (maxAnswers : Nat) (blocklist : Blocklist) (response : Response) (query : PendingQuery)

/-- A response is accepted iff it passes every check. -/
theorem validate_eq_ok_iff :
    (Validator.mk maxAnswers (some blocklist.blocks)).validate response query = .ok () ↔
      Sound maxAnswers response query ∧ (query.kind = .relay → Clean blocklist response.answers) := by
  rw [validate_ok_iff]
  constructor
  · rintro ⟨hid, hsource, hpasses⟩
    exact ⟨⟨⟨hid, hsource⟩, hpasses.echoes, hpasses.bounded⟩, (unblocked_iff _ _).1 hpasses.unblocked⟩
  · rintro ⟨⟨⟨hid, hsource⟩, hquestion, hbounded⟩, hclean⟩
    exact ⟨hid, hsource, hquestion, hbounded, (unblocked_iff _ _).2 hclean⟩

/-- A response is rejected for its id or its source, or it has those of its query. -/
theorem Rejected.origin_cases {maxAnswers : Nat} {blocklist : Blocklist} {response : Response} {query : PendingQuery}
    {reason : RejectReason} (h : Rejected maxAnswers blocklist response query reason) :
    response.id ≠ query.id ∧ reason = .idMismatch query.id response.id ∨
    (response.id = query.id ∧ query.server.canonical ≠ response.source.canonical ∧
      reason = .sourceMismatch query.server.canonical response.source.canonical) ∨
    Matches response query := by
  cases h with
  | otherId hne => exact Or.inl ⟨hne, rfl⟩
  | otherSource hid hne => exact Or.inr (Or.inl ⟨hid, hne, rfl⟩)
  | recased h _ _ _ => exact Or.inr (Or.inr h)
  | misquoted h _ => exact Or.inr (Or.inr h)
  | overlong h _ _ => exact Or.inr (Or.inr h)
  | blocked h _ _ _ _ _ => exact Or.inr (Or.inr h.origin)

/-- A response is rejected for the first check that it fails. -/
theorem validate_eq_error_iff (reason : RejectReason) :
    (Validator.mk maxAnswers (some blocklist.blocks)).validate response query = .error reason ↔
      Rejected maxAnswers blocklist response query reason := by
  by_cases hid : response.id = query.id
  · by_cases hsource : query.server.canonical = response.source.canonical
    · rw [validate_error_of_matching _ _ _ hid hsource, fails_iff ⟨hid, hsource⟩]
    · rw [validate_of_other_source _ _ _ hid hsource]
      constructor
      · rintro ⟨rfl⟩
        exact .otherSource hid hsource
      · intro h
        rcases h.origin_cases with ⟨hne, -⟩ | ⟨-, -, rfl⟩ | hmatches
        · exact absurd hid hne
        · rfl
        · exact absurd hmatches.2 hsource
  · have hv : (Validator.mk maxAnswers (some blocklist.blocks)).validate response query =
        .error (.idMismatch query.id response.id) := if_pos hid
    rw [hv]
    constructor
    · rintro ⟨rfl⟩
      exact .otherId hid
    · intro h
      rcases h.origin_cases with ⟨-, rfl⟩ | ⟨heq, -⟩ | hmatches
      · rfl
      · exact absurd heq hid
      · exact absurd hmatches.1 hid

/-! ## More and fewer networks -/

/-- Blocklists that list the same addresses lead to the same verdict. -/
theorem validate_congr {others : Blocklist} (h : ∀ a, others.Lists a ↔ blocklist.Lists a) :
    (Validator.mk maxAnswers (some others.blocks)).validate response query =
      (Validator.mk maxAnswers (some blocklist.blocks)).validate response query := by
  have hblocks : others.blocks = blocklist.blocks := by
    funext a
    rw [Bool.eq_iff_iff, Blocklist.blocks_iff, Blocklist.blocks_iff, h]
  rw [hblocks]

/-- An empty blocklist is as good as none. -/
theorem validate_empty :
    (Validator.mk maxAnswers (some (Blocklist.blocks ⟨[]⟩))).validate response query =
      (Validator.mk maxAnswers none).validate response query := by
  have hnone : firstBlocked? (Blocklist.blocks ⟨[]⟩) response.answers = none :=
    List.find?_eq_none.2 fun a _ => by simp [Blocklist.blocks]
  cases hkind : query.kind <;> simp [validate, checkAddresses, hnone, hkind]

variable {maxAnswers blocklist response query}

/-- A response that is rejected for anything but an address is rejected for the same with any other blocklist. -/
theorem validate_error_of_not_address {others : Blocklist} {reason : RejectReason} (hreason : ∀ a, reason ≠ .blockedAddress a)
    (h : (Validator.mk maxAnswers (some blocklist.blocks)).validate response query = .error reason) :
    (Validator.mk maxAnswers (some others.blocks)).validate response query = .error reason := by
  rw [validate_eq_error_iff] at h ⊢
  cases h with
  | otherId hne => exact .otherId hne
  | otherSource hid hne => exact .otherSource hid hne
  | recased h hq hne hsame => exact .recased h hq hne hsame
  | misquoted h hq => exact .misquoted h hq
  | overlong h hq hlt => exact .overlong h hq hlt
  | blocked => exact absurd rfl (hreason _)

variable {more : Blocklist} (hmore : ∀ a, blocklist.Lists a → more.Lists a)
include hmore

/-- What is accepted with more networks is accepted with fewer. -/
theorem validate_ok_of_more (h : (Validator.mk maxAnswers (some more.blocks)).validate response query = .ok ()) :
    (Validator.mk maxAnswers (some blocklist.blocks)).validate response query = .ok () := by
  obtain ⟨hsound, hclean⟩ := (validate_eq_ok_iff _ _ _ _).1 h
  exact (validate_eq_ok_iff _ _ _ _).2 ⟨hsound, fun hkind x hx a ha hlists => hclean hkind x hx a ha (hmore a hlists)⟩

/-- More networks leave the verdict, or block an address that was not listed before. -/
theorem validate_more_cases :
    (Validator.mk maxAnswers (some more.blocks)).validate response query =
        (Validator.mk maxAnswers (some blocklist.blocks)).validate response query ∨
      query.kind = .relay ∧ ∃ a, more.Lists a ∧ ¬blocklist.Lists a ∧
        (Validator.mk maxAnswers (some more.blocks)).validate response query = .error (.blockedAddress a) := by
  cases hv : (Validator.mk maxAnswers (some more.blocks)).validate response query with
  | ok _ => exact Or.inl (validate_ok_of_more hmore hv).symm
  | error reason =>
    have hrejected := (validate_eq_error_iff _ _ _ _ reason).1 hv
    suffices Rejected maxAnswers blocklist response query reason ∨
        query.kind = .relay ∧ ∃ a, more.Lists a ∧ ¬blocklist.Lists a ∧ reason = .blockedAddress a by
      rcases this with h | ⟨hkind, a, ha, hna, rfl⟩
      · exact Or.inl ((validate_eq_error_iff _ _ _ _ reason).2 h).symm
      · exact Or.inr ⟨hkind, a, ha, hna, rfl⟩
    cases hrejected with
    | otherId hne => exact Or.inl (.otherId hne)
    | otherSource hid hne => exact Or.inl (.otherSource hid hne)
    | recased h hq hne hsame => exact Or.inl (.recased h hq hne hsame)
    | misquoted h hq => exact Or.inl (.misquoted h hq)
    | overlong h hq hlt => exact Or.inl (.overlong h hq hlt)
    | @blocked before after x a hsound hkind hanswers hclean hx hlists =>
      by_cases ha : blocklist.Lists a
      · have hclean' : Clean blocklist before := fun y hy b hb hlisted => hclean y hy b hb (hmore b hlisted)
        exact Or.inl (.blocked hsound hkind hanswers hclean' hx ha)
      · exact Or.inr ⟨hkind, a, hlists, ha, rfl⟩

end Verdicts

/-- A response is accepted iff it has the id of the query, comes from the server asked, repeats the question exactly, has no
more answers than allowed and, if the query is relayed, holds no address that a network reaches; otherwise the reason is the
first check that fails. Only which networks are listed counts, and none are as good as no list. One more changes only verdicts
on relayed queries, into rejections for addresses that it reaches. -/
theorem validate_exact (maxAnswers : Nat) (networks : List Network) (response : Response) (query : PendingQuery) :
    let verdict (blocklist : Option Blocklist) := (Validator.mk maxAnswers (blocklist.map Blocklist.blocks)).validate response query
    let listing (networks : List Network) := verdict (some ⟨networks⟩)
    (listing networks = .ok () ↔ response.id = query.id ∧ response.source.canonical = query.server.canonical ∧
      response.question = some query.question ∧ response.answers.length ≤ maxAnswers ∧
      (query.kind = .relay → ∀ x ∈ response.answers, ∀ a, x.Holds a → ∀ network ∈ networks, ¬network.Reaches a)) ∧
    (∀ reason, listing networks = .error reason ↔ Rejected maxAnswers ⟨networks⟩ response query reason) ∧
    (∀ others, (∀ network, network ∈ others ↔ network ∈ networks) → listing others = listing networks) ∧
    verdict (some ⟨[]⟩) = verdict none ∧
    ∀ network,
      (listing (networks ++ [network]) = .ok () → listing networks = .ok ()) ∧
      (∀ reason, listing networks = .error reason → (∀ a, reason ≠ .blockedAddress a) →
        listing (networks ++ [network]) = .error reason) ∧
      (listing (networks ++ [network]) ≠ listing networks → query.kind = .relay ∧
        ∃ a, network.Reaches a ∧ listing (networks ++ [network]) = .error (.blockedAddress a)) := by
  intro verdict listing
  refine ⟨?_, validate_eq_error_iff maxAnswers ⟨networks⟩ response query, ?_, validate_empty maxAnswers response query, ?_⟩
  · refine (validate_eq_ok_iff maxAnswers ⟨networks⟩ response query).trans ⟨?_, ?_⟩
    · rintro ⟨⟨⟨hid, hsource⟩, hquestion, hbounded⟩, hclean⟩
      exact ⟨hid, hsource.symm, hquestion, hbounded, fun hkind x hx a ha network hn hreaches =>
        hclean hkind x hx a ha ⟨network, hn, hreaches⟩⟩
    · rintro ⟨hid, hsource, hquestion, hbounded, hclean⟩
      refine ⟨⟨⟨hid, hsource.symm⟩, hquestion, hbounded⟩, ?_⟩
      rintro hkind x hx a ha ⟨network, hn, hreaches⟩
      exact hclean hkind x hx a ha network hn hreaches
  · intro others hothers
    refine validate_congr _ _ _ _ fun a => ?_
    simp only [Blocklist.Lists, hothers]
  · intro network
    have hlists : ∀ a, (Blocklist.mk (networks ++ [network])).Lists a ↔
        (Blocklist.mk networks).Lists a ∨ network.Reaches a := by
      intro a
      simp [Blocklist.Lists, or_and_right, exists_or]
    have hmore : ∀ a, (Blocklist.mk networks).Lists a → (Blocklist.mk (networks ++ [network])).Lists a :=
      fun a ha => (hlists a).2 (Or.inl ha)
    refine ⟨validate_ok_of_more hmore, fun reason h hreason => validate_error_of_not_address hreason h, ?_⟩
    intro hne
    rcases validate_more_cases hmore with he | ⟨hkind, a, ha, hna, hv⟩
    · exact absurd he hne
    · exact ⟨hkind, a, ((hlists a).1 ha).resolve_left hna, hv⟩

end Validator

end DnsRelay
