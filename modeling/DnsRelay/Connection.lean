import DnsRelay.Listener.Basic

/-!
# Client connections

On a connection every message follows its length in two octets. `messages` cuts a whole stream at these lengths. A
server does not have the whole stream: it reads what has arrived into a buffer with room for a length and the longest
message, hands a message over as soon as it is complete, writes the reply, and moves what it has read behind the message
to the front of the buffer (`serve`). A message without a reply ends the connection, and so does a reply that is too long
for its length to be written. The timeout of reads, resets of a connection and shutting down are left out.
-/

namespace DnsRelay.Connection

/-! ## Streams -/

/-- The first message of a stream, if it is complete, and what follows it. -/
def next? : List UInt8 → Option (List UInt8 × List UInt8)
  | hi :: lo :: rest =>
    let length := (Octets.u16 hi lo).toNat
    if length ≤ rest.length then some (rest.take length, rest.drop length) else none
  | _ => none

theorem next?_length {stream message rest : List UInt8} (h : next? stream = some (message, rest)) :
    rest.length < stream.length := by
  unfold next? at h
  split at h
  · dsimp only at h
    split at h
    · simp only [Option.some.injEq, Prod.mk.injEq] at h
      simp [← h.2]
      omega
    · simp at h
  · simp at h

/-- The complete messages of a stream, in order. -/
def messages (stream : List UInt8) : List (List UInt8) :=
  match h : next? stream with
  | none => []
  | some (message, rest) =>
    have : rest.length < stream.length := next?_length h
    message :: messages rest
termination_by stream.length

/-- A message behind its length, if two octets can tell it. -/
def frame? (message : Octets) : Option (List UInt8) :=
  if message.size < 65536 then some (Octets.ofU16 (UInt16.ofNat message.size) ++ message.toList) else none

/-! ## What arrives -/

/-- What a client is still to send before the end of its stream, in the pieces in which it arrives. No piece is empty, for
a read that gives nothing means the end of the stream. -/
structure Inbound where
  pieces : List (List UInt8)
  nonempty : ∀ piece ∈ pieces, piece ≠ []

namespace Inbound

/-- What is still to come, as one stream. -/
def rest (i : Inbound) : List UInt8 :=
  i.pieces.flatten

/-- The pieces that are not empty. -/
def ofPieces (pieces : List (List UInt8)) : Inbound where
  pieces := pieces.filter (· ≠ [])
  nonempty := fun _ hp => by simpa using (List.mem_filter.1 hp).2

/-- A read into `room` octets. It gives the first piece, or as much of it as there is room for. -/
def read (i : Inbound) (room : Nat) : List UInt8 × Inbound :=
  match i with
  | ⟨[], _⟩ => ([], i)
  | ⟨piece :: others, h⟩ =>
    if hle : piece.length ≤ room then (piece, ⟨others, fun p hp => h p (List.mem_cons_of_mem _ hp)⟩)
    else
      (piece.take room, ⟨piece.drop room :: others, List.forall_mem_cons.2
        ⟨fun he => hle (List.drop_eq_nil_iff.1 he), fun p hp => h p (List.mem_cons_of_mem _ hp)⟩⟩)

/-- A read takes what it gives from the front of the stream. -/
theorem read_append (i : Inbound) (room : Nat) : (i.read room).1 ++ (i.read room).2.rest = i.rest := by
  unfold read
  split
  · rfl
  · split
    · rfl
    · simp [rest, ← List.append_assoc]

/-- A read gives no more than there is room for. -/
theorem length_read_le (i : Inbound) (room : Nat) : (i.read room).1.length ≤ room := by
  unfold read
  split
  · exact Nat.zero_le _
  · split
    · assumption
    · exact List.length_take_le _ _

end Inbound

/-! ## The buffer -/

/-- The room for what was read and not yet answered: a length and the longest message. -/
def bufferSize : Nat := 2 + maxMessageSize

/-- Octets of which the first `filled` were read and not yet answered. -/
structure Buffer where
  octets : Octets
  filled : Nat
  size_eq : octets.size = bufferSize
  filled_le : filled ≤ bufferSize
  deriving DecidableEq, Repr

namespace Buffer

/-- A buffer into which nothing was read. -/
def empty : Buffer :=
  ⟨Array.replicate bufferSize 0, 0, Array.size_replicate, Nat.zero_le _⟩

/-- How many octets can be read into the buffer. -/
def room (b : Buffer) : Nat :=
  bufferSize - b.filled

/-- Puts octets behind those that were read before. -/
def put (b : Buffer) (new : List UInt8) (h : new.length ≤ b.room) : Buffer where
  octets := b.octets.overwrite b.filled new
  filled := b.filled + new.length
  size_eq := by rw [Octets.size_overwrite, b.size_eq]
  filled_le := Nat.add_le_of_le_sub' b.filled_le h

theorem filled_put (b : Buffer) {new : List UInt8} (h : new.length ≤ b.room) :
    (b.put new h).filled = b.filled + new.length :=
  rfl

/-- The length of the message at the front, once its two octets were read. -/
def announced? (b : Buffer) : Option Nat :=
  if 2 ≤ b.filled then (b.octets.u16At? 0).map (·.toNat) else none

/-- The message at the front, of the given length. -/
def message (b : Buffer) (length : Nat) : Octets :=
  b.octets.extract 2 (2 + length)

/-- Gives up the first `n` octets: what was read behind them moves to the front. -/
def discard (b : Buffer) (n : Nat) : Buffer :=
  if n < b.filled then
    { b with
      octets := b.octets.overwrite 0 (b.octets.extract n b.filled).toList
      filled := b.filled - n
      size_eq := by rw [Octets.size_overwrite, b.size_eq]
      filled_le := Nat.le_trans (Nat.sub_le _ _) b.filled_le }
  else { b with filled := 0, filled_le := Nat.zero_le _ }

theorem filled_discard (b : Buffer) (n : Nat) : (b.discard n).filled = b.filled - n := by
  unfold discard
  split
  · rfl
  · dsimp only
    omega

end Buffer

/-! ## Serving -/

/-- What a connection does: it reads octets into some room, hands a message over to be answered, or writes. -/
inductive Effect where
  | read (room : Nat) (octets : List UInt8)
  | ask (message : Octets)
  | write (octets : List UInt8)
  deriving DecidableEq, Repr

/-- The messages that are handed over, in order. -/
def asked (effects : List Effect) : List Octets :=
  effects.filterMap fun
    | .ask message => some message
    | _ => none

/-- All that is written to the client. -/
def written (effects : List Effect) : List UInt8 :=
  effects.flatMap fun
    | .write octets => octets
    | _ => []

/-- A message at the front of a buffer, by its length, and what is still to come. -/
structure Arrived where
  length : Nat
  buffer : Buffer
  inbound : Inbound

/-- Reads until there is a whole message at the front of the buffer, unless the stream ends before. `known` is the length
of the message if an earlier round has looked at it; what was read before may hold the length, or all of the message. -/
def readMessage (buffer : Buffer) (known : Option Nat) (inbound : Inbound) : List Effect × Option Arrived :=
  let known := known.or buffer.announced?
  match known.filter fun length => 2 + length ≤ buffer.filled with
  | some length => ([], some ⟨length, buffer, inbound⟩)
  | none =>
    match h : (inbound.read buffer.room).1 with
    | [] => ([.read buffer.room []], none)
    | b :: bs =>
      have hle : (b :: bs).length ≤ buffer.room := h ▸ inbound.length_read_le buffer.room
      have : (inbound.read buffer.room).2.rest.length < inbound.rest.length := by
        rw [← inbound.read_append buffer.room, h, List.length_append, List.length_cons]
        omega
      let (effects, arrived) := readMessage (buffer.put (b :: bs) hle) known (inbound.read buffer.room).2
      (.read buffer.room (b :: bs) :: effects, arrived)
termination_by inbound.rest.length

/-- Reading moves octets from the stream into the buffer, up to the end of a message at least. -/
theorem readMessage_filled {buffer : Buffer} {known : Option Nat} {inbound : Inbound} {arrived : Arrived}
    (h : (readMessage buffer known inbound).2 = some arrived) :
    2 + arrived.length ≤ arrived.buffer.filled ∧
      arrived.buffer.filled + arrived.inbound.rest.length = buffer.filled + inbound.rest.length := by
  fun_induction readMessage buffer known inbound with
  | case1 buffer known inbound known' length hlength =>
    cases h
    have hle := (Option.filter_eq_some_iff.1 hlength).2
    exact ⟨by simpa using hle, rfl⟩
  | case2 buffer known inbound known' hlength hread => cases h
  | case3 buffer known inbound known' hlength b bs hread hle hlt effects result hrest ih =>
    obtain ⟨hfits, hsum⟩ := ih (by rw [hrest]; exact h)
    have happend := congrArg List.length (inbound.read_append buffer.room)
    rw [hread, List.length_append] at happend
    refine ⟨hfits, ?_⟩
    rw [hsum, Buffer.filled_put]
    omega

variable {σ : Type}

/-- How a message is answered, with a state that is passed on. -/
abbrev Answerer (σ : Type) := σ → Octets → Option Octets × σ

/-- How a listener answers what comes on a connection of `client`. -/
def Answerer.ofListener (send : Sender σ) (client : Endpoint) : Answerer (Listener × σ) :=
  fun (l, s) octets =>
    let (reply, _, l, s) := l.handle send s ⟨octets, client, .tcp⟩
    (reply, (l, s))

/-- Serves a connection: `buffer` holds what was read and not yet answered, `inbound` is still to come. -/
def serve (answer : Answerer σ) (s : σ) (buffer : Buffer) (inbound : Inbound) : List Effect × σ :=
  match h : readMessage buffer none inbound with
  | (reads, none) => (reads, s)
  | (reads, some arrived) =>
    let message := arrived.buffer.message arrived.length
    match answer s message with
    | (none, s) => (reads ++ [.ask message], s)
    | (some reply, s) =>
      match frame? reply with
      | none => (reads ++ [.ask message], s)
      | some framed =>
        have : (arrived.buffer.discard (2 + arrived.length)).filled + arrived.inbound.rest.length <
            buffer.filled + inbound.rest.length := by
          have hfilled := readMessage_filled (congrArg Prod.snd h)
          rw [Buffer.filled_discard]
          omega
        let (effects, s) := serve answer s (arrived.buffer.discard (2 + arrived.length)) arrived.inbound
        (reads ++ .ask message :: .write framed :: effects, s)
termination_by buffer.filled + inbound.rest.length

end DnsRelay.Connection
