import DnsRelay.Address.Text
import DnsRelay.Pending.Query
import DnsRelay.Response

/-!
# Validation of responses

A response is accepted for a pending query if it repeats the id, comes from the server asked, repeats the question
octet for octet, has no more answers than allowed and, unless it answers a probe, holds no blocked address. The first
check that fails is the reason for rejecting it.
-/

namespace DnsRelay

/-- Why a response is rejected. -/
inductive RejectReason where
  | idMismatch (expected received : UInt16)
  | sourceMismatch (expected received : Endpoint)
  | questionMismatch
  | caseMismatch
  | tooManyAnswers (count : Nat)
  | blockedAddress (address : Address)
  deriving DecidableEq, Repr

namespace RejectReason

/-- The wording of a reason. -/
def message : RejectReason → String
  | .idMismatch e r => "ID mismatch (expected " ++ Nat.repr e.toNat ++ ", received " ++ Nat.repr r.toNat ++ ")"
  | .sourceMismatch e r => "source mismatch (expected " ++ e.toString ++ ", received " ++ r.toString ++ ")"
  | .questionMismatch => "question not echoed exactly"
  | .caseMismatch => "question echoed with its case changed"
  | .tooManyAnswers n => "too many answers (" ++ Nat.repr n ++ ")"
  | .blockedAddress a => "answer address " ++ a.toString ++ " is blocklisted"

/-- The name of a reason with its details. -/
def label : RejectReason → String
  | .idMismatch e r =>
    "IdMismatch \x7b expected: " ++ Nat.repr e.toNat ++ ", received: " ++ Nat.repr r.toNat ++ " \x7d"
  | .sourceMismatch e r =>
    "SourceMismatch \x7b expected: " ++ e.toString ++ ", received: " ++ r.toString ++ " \x7d"
  | .questionMismatch => "QuestionMismatch"
  | .caseMismatch => "CaseMismatch"
  | .tooManyAnswers n => "TooManyAnswers(" ++ Nat.repr n ++ ")"
  | .blockedAddress a => "BlockedAddress(" ++ a.toString ++ ")"

end RejectReason

/-- What a response is held against apart from its query: how many answers are allowed, and which addresses are blocked. The
latter is any predicate; `Blocklist.blocks` is the one that a list of networks stands for. -/
structure Validator where
  maxAnswers : Nat
  blocked : Option (Address → Bool)

namespace Validator

/-- How many answers are allowed if nothing else is said. -/
def defaultMaxAnswers : Nat := 64

/-- The first blocked address among the answers. -/
def firstBlocked? (blocked : Address → Bool) (answers : List Record) : Option Address :=
  (answers.filterMap Record.address?).find? blocked

/-- How the question of a response fails to repeat the one that was asked. -/
def checkQuestion (asked : Question) : Option Question → Except RejectReason Unit
  | none => .error .questionMismatch
  | some q =>
    if q = asked then .ok ()
    else if q.same asked then .error .caseMismatch
    else .error .questionMismatch

/-- Holds a response against the addresses that are blocked, which counts only for relayed queries. -/
def checkAddresses (v : Validator) (kind : QueryKind) (answers : List Record) : Except RejectReason Unit :=
  match v.blocked, kind with
  | some blocked, .relay =>
    match firstBlocked? blocked answers with
    | some a => .error (.blockedAddress a)
    | none => .ok ()
  | _, _ => .ok ()

/-- Holds a response against the query it claims to answer: nothing, or the first check that fails. -/
def validate (v : Validator) (response : Response) (query : PendingQuery) : Except RejectReason Unit :=
  let expected := query.server.canonical
  let received := response.source.canonical
  if response.id ≠ query.id then .error (.idMismatch query.id response.id)
  else if expected ≠ received then .error (.sourceMismatch expected received)
  else do
    checkQuestion query.question response.question
    if v.maxAnswers < response.answers.length then .error (.tooManyAnswers response.answers.length)
    else v.checkAddresses query.kind response.answers

/-- The text of a validator: its bound, and whether addresses are blocked. -/
def summary (v : Validator) : String :=
  "Validator \x7b max_answers: " ++ Nat.repr v.maxAnswers ++ ", blocklist: " ++
    (if v.blocked.isSome then "true" else "false") ++ " \x7d"

end Validator

end DnsRelay
