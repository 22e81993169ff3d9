import DnsRelay.Connection
import DnsRelay.Proofs.Listener.Answers
import DnsRelay.Proofs.Octets
import DnsRelay.Proofs.Transcript

/-!
# A connection serves the messages of its stream

However the octets of a client arrive, a connection answers the messages that the whole stream is cut into, one after
another, up to the first without a reply that can be written. The main result is `serve_exact`. It rests on what one round
of reading does (`readMessage_some`, `readMessage_none`): what the buffer holds, followed by what is still to come, stays
the same stream until a message is taken off its front.
-/

namespace DnsRelay.Connection

/-! ## Cutting a stream -/

/-- The length of the first message of a stream, once both of its octets are there. -/
def announced? : List UInt8 → Option Nat
  | hi :: lo :: _ => some (Octets.u16 hi lo).toNat
  | _ => none

/-- The announced length does not depend on what follows its two octets. -/
theorem announced?_append {stream : List UInt8} {length : Nat} (h : announced? stream = some length) (more : List UInt8) :
    announced? (stream ++ more) = some length := by
  match stream, h with
  | hi :: lo :: _, h => exact h

/-- An announced length is at most 65535. -/
theorem announced?_le {stream : List UInt8} {length : Nat} (h : announced? stream = some length) :
    length ≤ maxMessageSize := by
  match stream, h with
  | hi :: lo :: _, h =>
    cases h
    exact Nat.le_of_lt_succ (UInt16.toNat_lt _)

/-- Without an announced length a stream has less than two octets. -/
theorem announced?_eq_none_iff (stream : List UInt8) : announced? stream = none ↔ stream.length < 2 := by
  match stream with
  | [] => simp [announced?]
  | [_] => simp [announced?]
  | _ :: _ :: _ => simp [announced?]

/-- A stream that announces a message and has all of it is cut behind it. -/
theorem next?_of_le {stream : List UInt8} {length : Nat} (h : announced? stream = some length)
    (hle : 2 + length ≤ stream.length) :
    next? stream = some ((stream.drop 2).take length, stream.drop (2 + length)) := by
  match stream, h with
  | hi :: lo :: rest, h =>
    cases h
    rw [List.length_cons, List.length_cons] at hle
    have hrest : (Octets.u16 hi lo).toNat ≤ rest.length := by omega
    rw [next?, if_pos hrest, Nat.add_comm 2]
    rfl

/-- A stream that ends within the message that it announces has no message. -/
theorem next?_of_lt {stream : List UInt8} (h : ∀ length, announced? stream = some length → stream.length < 2 + length) :
    next? stream = none := by
  match stream with
  | [] => rfl
  | [_] => rfl
  | hi :: lo :: rest =>
    have hlt := h _ rfl
    rw [List.length_cons, List.length_cons] at hlt
    have hrest : ¬(Octets.u16 hi lo).toNat ≤ rest.length := by omega
    rw [next?, if_neg hrest]

theorem messages_of_none {stream : List UInt8} (h : next? stream = none) : messages stream = [] := by
  rw [messages]
  split
  · rfl
  · rename_i heq
    rw [h] at heq
    cases heq

theorem messages_of_some {stream message rest : List UInt8} (h : next? stream = some (message, rest)) :
    messages stream = message :: messages rest := by
  rw [messages]
  split
  · rename_i heq
    rw [h] at heq
    cases heq
  · rename_i heq
    rw [h] at heq
    cases heq
    rfl

/-! ## What arrives -/

/-- A read with some room gives nothing only at the end of the stream. -/
theorem Inbound.rest_of_read {i : Inbound} {room : Nat} (hroom : 0 < room) (h : (i.read room).1 = []) : i.rest = [] := by
  obtain ⟨pieces, hne⟩ := i
  cases pieces with
  | nil => rfl
  | cons piece others =>
    have hpiece := hne piece List.mem_cons_self
    dsimp only [read] at h
    split at h
    · exact absurd h hpiece
    · rcases List.take_eq_nil_iff.1 h with h | h
      · omega
      · exact absurd h hpiece

/-! ## What a buffer holds -/

namespace Buffer

/-- What was read into a buffer and not yet answered. -/
def held (b : Buffer) : List UInt8 :=
  b.octets.toList.take b.filled

@[simp] theorem held_empty : empty.held = [] :=
  rfl

@[simp] theorem length_held (b : Buffer) : b.held.length = b.filled := by
  rw [held, List.length_take, Array.length_toList, b.size_eq, Nat.min_eq_left b.filled_le]

theorem getElem?_held (b : Buffer) (k : Nat) : b.held[k]? = if k < b.filled then b.octets[k]? else none := by
  rw [held, List.getElem?_take, Array.getElem?_toList]

/-- The octets of a buffer are what it holds, and others behind that. -/
theorem toList_eq (b : Buffer) : b.octets.toList = b.held ++ b.octets.toList.drop b.filled :=
  (List.take_append_drop _ _).symm

/-- New octets are held behind those that were held before. -/
theorem held_put (b : Buffer) {new : List UInt8} (h : new.length ≤ b.room) : (b.put new h).held = b.held ++ new := by
  have hroom := b.filled_le
  rw [room] at h
  have hlen : (b.octets.toList.drop b.filled).length = bufferSize - b.filled := by
    rw [List.length_drop, Array.length_toList, b.size_eq]
  have hcut : b.octets.toList =
      b.held ++ (b.octets.toList.drop b.filled).take new.length ++ (b.octets.toList.drop b.filled).drop new.length := by
    rw [List.append_assoc, List.take_append_drop, ← toList_eq]
  have hnew : new.length = ((b.octets.toList.drop b.filled).take new.length).length := by
    rw [List.length_take, hlen]
    omega
  have hover := Octets.toList_overwrite hcut hnew
  rw [length_held] at hover
  rw [held, put, hover, List.take_left' (by simp)]

/-- Giving up the first octets leaves those behind them. -/
theorem held_discard (b : Buffer) (n : Nat) : (b.discard n).held = b.held.drop n := by
  unfold discard
  split
  · rename_i hlt
    have hle := b.filled_le
    have hrest : (b.octets.extract n b.filled).toList = b.held.drop n := by
      rw [Array.toList_extract, List.extract_eq_take_drop, held, List.drop_take]
    have hlen : (b.held.drop n).length = b.filled - n := by
      rw [List.length_drop, length_held]
    have hcut : b.octets.toList = [] ++ b.octets.toList.take (b.filled - n) ++ b.octets.toList.drop (b.filled - n) := by
      rw [List.nil_append, List.take_append_drop]
    have hnew : (b.held.drop n).length = (b.octets.toList.take (b.filled - n)).length := by
      rw [hlen, List.length_take, Array.length_toList, b.size_eq]
      omega
    have hover := Octets.toList_overwrite hcut hnew
    rw [List.length_nil, List.nil_append, ← hrest] at hover
    rw [held]
    dsimp only
    rw [hover, hrest, List.take_left' hlen]
  · rename_i hge
    rw [List.drop_eq_nil_of_le (by rw [length_held]; omega)]
    rfl

/-- The announced length is that of what the buffer holds. -/
theorem announced?_eq (b : Buffer) : b.announced? = Connection.announced? b.held := by
  unfold announced? Octets.u16At?
  have h0 := b.getElem?_held 0
  have h1 := b.getElem?_held 1
  have hlen := b.length_held
  split
  · rename_i hle
    rw [if_pos (by omega)] at h0 h1
    rw [← h0, ← h1]
    match b.held, hlen with
    | hi :: lo :: _, _ => rfl
    | [_], hlen => simp at hlen; omega
    | [], hlen => simp at hlen; omega
  · exact ((announced?_eq_none_iff _).2 (by omega)).symm

/-- A message at the front of a buffer is the first of the stream that the buffer is the front of. -/
theorem next?_held {b : Buffer} {length : Nat} (h : b.announced? = some length) (hle : 2 + length ≤ b.filled)
    (rest : List UInt8) :
    next? (b.held ++ rest) = some ((b.message length).toList, (b.discard (2 + length)).held ++ rest) := by
  rw [announced?_eq] at h
  have hlen := b.length_held
  rw [next?_of_le (announced?_append h rest) (by rw [List.length_append]; omega), held_discard,
    List.drop_append_of_le_length (by omega), List.drop_append_of_le_length (by omega),
    List.take_append_of_le_length (by rw [List.length_drop]; omega)]
  congr 2
  rw [message, Array.toList_extract, List.extract_eq_take_drop, held, List.drop_take, List.take_take]
  congr 1
  omega

end Buffer

/-! ## What is done in order -/

@[simp] theorem asked_nil : asked [] = [] :=
  rfl

@[simp] theorem written_nil : written [] = [] :=
  rfl

@[simp] theorem asked_append (a b : List Effect) : asked (a ++ b) = asked a ++ asked b := by
  simp [asked]

@[simp] theorem asked_ask (message : Octets) (effects : List Effect) :
    asked (.ask message :: effects) = message :: asked effects := by
  simp [asked]

@[simp] theorem asked_write (octets : List UInt8) (effects : List Effect) : asked (.write octets :: effects) = asked effects := by
  simp [asked]

@[simp] theorem written_append (a b : List Effect) : written (a ++ b) = written a ++ written b := by
  simp [written]

@[simp] theorem written_ask (message : Octets) (effects : List Effect) : written (.ask message :: effects) = written effects := by
  simp [written]

@[simp] theorem written_write (octets : List UInt8) (effects : List Effect) :
    written (.write octets :: effects) = octets ++ written effects := by
  simp [written]

/-- Only reads, each with room for an octet at least. -/
def OnlyReads (effects : List Effect) : Prop :=
  ∀ effect ∈ effects, ∃ room octets, effect = .read room octets ∧ 0 < room

/-- Reading hands nothing over and writes nothing. -/
theorem OnlyReads.silent {effects : List Effect} (h : OnlyReads effects) : asked effects = [] ∧ written effects = [] := by
  constructor
  · refine List.filterMap_eq_nil_iff.2 fun effect heffect => ?_
    obtain ⟨room, octets, rfl, -⟩ := h effect heffect
    rfl
  · refine List.flatMap_eq_nil_iff.2 fun effect heffect => ?_
    obtain ⟨room, octets, rfl, -⟩ := h effect heffect
    rfl

theorem OnlyReads.room_pos {effects : List Effect} (h : OnlyReads effects) {room : Nat} {octets : List UInt8}
    (hmem : Effect.read room octets ∈ effects) : 0 < room := by
  obtain ⟨room', octets', heq, hroom⟩ := h _ hmem
  cases heq
  exact hroom

/-! ## Reading a message -/

/-- A remembered length is the one that the buffer announces. -/
def Remembers (known : Option Nat) (buffer : Buffer) : Prop :=
  ∀ length, known = some length → buffer.announced? = some length

/-- Before anything is looked at nothing is remembered. -/
theorem remembers_none (buffer : Buffer) : Remembers none buffer :=
  nofun

/-- Looking at the buffer again tells nothing else than what is remembered. -/
theorem Remembers.or_eq {known : Option Nat} {buffer : Buffer} (h : Remembers known buffer) :
    known.or buffer.announced? = buffer.announced? := by
  cases known with
  | none => rfl
  | some length => exact (h length rfl).symm

/-- A length that is announced stays announced when more is read. -/
theorem Remembers.put {known : Option Nat} {buffer : Buffer} (h : Remembers known buffer) {new : List UInt8}
    (hroom : new.length ≤ buffer.room) : Remembers (known.or buffer.announced?) (buffer.put new hroom) := by
  intro length hlength
  rw [h.or_eq, Buffer.announced?_eq] at hlength
  rw [Buffer.announced?_eq, Buffer.held_put]
  exact announced?_append hlength new

/-- As long as the message at the front is not complete there is room, for a message of any length fits. -/
theorem Remembers.room_pos {known : Option Nat} {buffer : Buffer} (hknown : Remembers known buffer)
    (h : (known.or buffer.announced?).filter (fun length => 2 + length ≤ buffer.filled) = none) :
    0 < buffer.room := by
  rw [hknown.or_eq] at h
  by_contra hroom
  rw [Buffer.room] at hroom
  have hfull : bufferSize ≤ buffer.filled := by omega
  have hsize : 2 ≤ bufferSize := by decide
  have hlen := buffer.length_held
  cases hlength : buffer.announced? with
  | none =>
    rw [Buffer.announced?_eq, announced?_eq_none_iff] at hlength
    omega
  | some length =>
    have hle := announced?_le ((Buffer.announced?_eq buffer).symm.trans hlength)
    rw [hlength] at h
    have hlt := Option.filter_eq_none_iff.1 h length rfl
    rw [bufferSize] at hfull
    simp only [decide_eq_true_eq] at hlt
    omega

section ReadMessage

variable {buffer : Buffer} {known : Option Nat} {inbound : Inbound}

/-- Reading a message does nothing but read, and always with some room. -/
theorem readMessage_reads (h : Remembers known buffer) : OnlyReads (readMessage buffer known inbound).1 := by
  fun_induction readMessage buffer known inbound with
  | case1 => exact List.forall_mem_nil _
  | case2 buffer known inbound known' hlength hread =>
    intro effect heffect
    have hroom := h.room_pos hlength
    exact ⟨_, _, List.mem_singleton.1 heffect, hroom⟩
  | case3 buffer known inbound known' hlength b bs hread hle hlt effects result hrest ih =>
    have hroom := h.room_pos hlength
    intro effect heffect
    rcases List.mem_cons.1 heffect with rfl | heffect
    · exact ⟨_, _, rfl, hroom⟩
    · exact ih (h.put hle) effect (by rw [hrest]; exact heffect)

/-- A message that was read is the one that the buffer announces, and nothing of the stream is lost. -/
theorem readMessage_some (h : Remembers known buffer) {arrived : Arrived}
    (harrived : (readMessage buffer known inbound).2 = some arrived) :
    arrived.buffer.announced? = some arrived.length ∧
      arrived.buffer.held ++ arrived.inbound.rest = buffer.held ++ inbound.rest := by
  fun_induction readMessage buffer known inbound with
  | case1 buffer known inbound known' length hlength =>
    cases harrived
    have hknown : known' = some length := (Option.filter_eq_some_iff.1 hlength).1
    exact ⟨h.or_eq.symm.trans hknown, rfl⟩
  | case2 => cases harrived
  | case3 buffer known inbound known' hlength b bs hread hle hlt effects result hrest ih =>
    obtain ⟨hannounced, hstream⟩ := ih (h.put hle) (by rw [hrest]; exact harrived)
    have happend := inbound.read_append buffer.room
    rw [hread] at happend
    refine ⟨hannounced, ?_⟩
    rw [hstream, Buffer.held_put, List.append_assoc, happend]

/-- No message is read only if the stream has no complete one. -/
theorem readMessage_none (h : Remembers known buffer) (hnone : (readMessage buffer known inbound).2 = none) :
    next? (buffer.held ++ inbound.rest) = none := by
  fun_induction readMessage buffer known inbound with
  | case1 => cases hnone
  | case2 buffer known inbound known' hlength hread =>
    rw [Inbound.rest_of_read (h.room_pos hlength) hread, List.append_nil]
    refine next?_of_lt fun length hlen => ?_
    have hannounced : known.or buffer.announced? = some length := h.or_eq.trans ((Buffer.announced?_eq buffer).trans hlen)
    have hlt := Option.filter_eq_none_iff.1 hlength length hannounced
    rw [Buffer.length_held]
    simpa using hlt
  | case3 buffer known inbound known' hlength b bs hread hle hlt effects result hrest ih =>
    have happend := inbound.read_append buffer.room
    rw [hread] at happend
    rw [← happend, ← List.append_assoc, ← Buffer.held_put buffer hle]
    exact ih (h.put hle) (by rw [hrest]; exact hnone)

end ReadMessage

/-! ## Serving -/

section Serve

variable {σ : Type} (answer : Answerer σ) (s : σ)

/-- The replies to messages that are answered one after another, each behind its length, up to the first message that has
none or one too long for its length to be written. -/
def frames (msgs : List Octets) : List (List UInt8) :=
  (((transcript answer s msgs).1.map (·.bind frame?)).takeWhile Option.isSome).filterMap id

variable {answer s} {s' : σ} {message : Octets} {reply : Option Octets}

/-- A message without a reply that can be written is the last one. -/
theorem frames_cons_of_none (hanswer : answer s message = (reply, s')) (hframe : reply.bind frame? = none)
    (msgs : List Octets) : frames answer s (message :: msgs) = [] := by
  simp [frames, transcript_cons, hanswer, hframe]

/-- The reply to a message is written in front of those to the messages behind it. -/
theorem frames_cons_of_some {framed : List UInt8} (hanswer : answer s message = (reply, s'))
    (hframe : reply.bind frame? = some framed) (msgs : List Octets) :
    frames answer s (message :: msgs) = framed :: frames answer s' msgs := by
  simp [frames, transcript_cons, hanswer, hframe]

/-- What a connection does with the messages that a stream is cut into: it hands over those whose replies are written and
the one behind them, writes these replies, is left in the state behind the last message that it handed over, and has room
whenever it reads. -/
structure Serves (answer : Answerer σ) (s : σ) (msgs : List Octets) (effects : List Effect) (s' : σ) : Prop where
  asked : asked effects = msgs.take ((frames answer s msgs).length + 1)
  written : written effects = (frames answer s msgs).flatten
  state : s' = stateAt answer s msgs ((frames answer s msgs).length + 1)
  room : ∀ room octets, Effect.read room octets ∈ effects → 0 < room

variable {reads : List Effect} (hreads : OnlyReads reads)

include hreads

/-- Without another message a connection ends. -/
theorem Serves.nil (s : σ) : Serves answer s [] reads s where
  asked := hreads.silent.1
  written := hreads.silent.2
  state := rfl
  room := fun _ _ => hreads.room_pos

/-- A message without a reply that can be written ends a connection, whatever comes behind it. -/
theorem Serves.last (hanswer : answer s message = (reply, s')) (hframe : reply.bind frame? = none)
    (msgs : List Octets) : Serves answer s (message :: msgs) (reads ++ [.ask message]) s' := by
  have hframes := frames_cons_of_none hanswer hframe msgs
  refine ⟨?_, ?_, ?_, ?_⟩
  · simp [hframes, hreads.silent.1]
  · simp [hframes, hreads.silent.2]
  · simp [hframes, hanswer]
  · intro room octets hmem
    simp only [List.mem_append, List.mem_singleton, reduceCtorEq, or_false] at hmem
    exact hreads.room_pos hmem

/-- Behind a reply that is written the connection goes on with the next message. -/
theorem Serves.next (hanswer : answer s message = (reply, s')) {framed : List UInt8}
    (hframe : reply.bind frame? = some framed) {msgs : List Octets} {effects : List Effect} {s'' : σ}
    (hrest : Serves answer s' msgs effects s'') :
    Serves answer s (message :: msgs) (reads ++ .ask message :: .write framed :: effects) s'' := by
  have hframes := frames_cons_of_some hanswer hframe msgs
  refine ⟨?_, ?_, ?_, ?_⟩
  · simp [hframes, hreads.silent.1, hrest.asked]
  · simp [hframes, hreads.silent.2, hrest.written]
  · simp [hframes, hanswer, hrest.state]
  · intro room octets hmem
    simp only [List.mem_append, List.mem_cons, reduceCtorEq, false_or] at hmem
    rcases hmem with hmem | hmem
    · exact hreads.room_pos hmem
    · exact hrest.room room octets hmem

omit hreads

/-- A message that was read is the first of the stream, and the rest of the stream is held behind it or still to come. -/
theorem messages_of_arrived {buffer : Buffer} {inbound : Inbound} {arrived : Arrived}
    (h : (readMessage buffer none inbound).2 = some arrived) :
    (messages (buffer.held ++ inbound.rest)).map List.toArray = arrived.buffer.message arrived.length ::
      (messages ((arrived.buffer.discard (2 + arrived.length)).held ++ arrived.inbound.rest)).map List.toArray := by
  obtain ⟨hannounced, hstream⟩ := readMessage_some (remembers_none buffer) h
  have hnext := Buffer.next?_held hannounced (readMessage_filled h).1 arrived.inbound.rest
  rw [← hstream, messages_of_some hnext, List.map_cons, Array.toArray_toList]

/-- From a buffer that holds the front of a stream, a connection serves the messages of that stream. -/
theorem serve_serves (answer : Answerer σ) (s : σ) (buffer : Buffer) (inbound : Inbound) :
    Serves answer s ((messages (buffer.held ++ inbound.rest)).map List.toArray) (serve answer s buffer inbound).1
      (serve answer s buffer inbound).2 := by
  have hreads (b : Buffer) (i : Inbound) : OnlyReads (readMessage b none i).1 := readMessage_reads (remembers_none b)
  fun_induction serve answer s buffer inbound with
  | case1 s buffer inbound reads hread =>
    have honly := hread ▸ hreads buffer inbound
    rw [messages_of_none (readMessage_none (remembers_none buffer) (congrArg Prod.snd hread))]
    exact Serves.nil honly s
  | case2 s buffer inbound reads arrived hread message s' hanswer =>
    have honly := hread ▸ hreads buffer inbound
    rw [messages_of_arrived (congrArg Prod.snd hread)]
    exact Serves.last honly hanswer rfl _
  | case3 s buffer inbound reads arrived hread message reply s' hanswer hframe =>
    have honly := hread ▸ hreads buffer inbound
    rw [messages_of_arrived (congrArg Prod.snd hread)]
    exact Serves.last honly hanswer hframe _
  | case4 s buffer inbound reads arrived hread message reply s' hanswer framed hframe hlt effects last hrest ih =>
    have honly := hread ▸ hreads buffer inbound
    rw [hrest] at ih
    rw [messages_of_arrived (congrArg Prod.snd hread)]
    exact Serves.next honly hanswer hframe ih

/-- If the lengths of all replies can be written, it is only for want of a reply that there is no next one. -/
theorem frames_of_fits {msgs : List Octets}
    (h : ∀ reply, some reply ∈ (transcript answer s msgs).1 → reply.size ≤ maxMessageSize) :
    frames answer s msgs = (((transcript answer s msgs).1.takeWhile Option.isSome).filterMap id).map fun reply =>
      Octets.ofU16 (UInt16.ofNat reply.size) ++ reply.toList := by
  unfold frames
  revert h
  generalize (transcript answer s msgs).1 = replies
  intro h
  induction replies with
  | nil => rfl
  | cons reply replies ih =>
    cases reply with
    | none => rfl
    | some reply =>
      have hframe : frame? reply = some (Octets.ofU16 (UInt16.ofNat reply.size) ++ reply.toList) :=
        if_pos (Nat.lt_succ_of_le (h reply List.mem_cons_self))
      have hrest := ih fun other hother => h other (List.mem_cons_of_mem _ hother)
      rw [List.map_cons, Option.bind_some, hframe, List.takeWhile_cons_of_pos rfl, List.takeWhile_cons_of_pos rfl]
      exact congrArg (_ :: ·) hrest

end Serve

/-- What an exchange yields was accepted if each attempt yields nothing else. -/
theorem accepted_exchange {σ : Type} {send : Sender σ} (hsend : ∀ s resolver out, Listener.Accepted (send s resolver out).1)
    (retry : Bool) (s : σ) (out : Outbound) (first : Resolver) (second : Option Resolver) :
    Listener.Accepted (exchange send retry s out first second).1 := by
  have hfirst := hsend s first out
  unfold exchange
  split
  · rename_i e s' other heq
    split
    · exact hsend s' other out
    · nofun
  · rename_i result s' heq _
    rw [heq] at hfirst
    exact hfirst

/-- The length of each reply of a listener can be written, if it relays no response that was not accepted. -/
theorem fits_ofListener {σ : Type} {send : Sender σ} (hsend : ∀ s resolver out, Listener.Accepted (send s resolver out).1)
    {client : Endpoint} {state : Listener × σ} {message reply : Octets}
    (h : (Answerer.ofListener send client state message).1 = some reply) : reply.size ≤ maxMessageSize := by
  obtain ⟨l, s⟩ := state
  have haccepted : ∀ m q, Listener.triage message client.canonical = .forward m q →
      Listener.Accepted (l.relayed send s ⟨message, client, .tcp⟩ q) := by
    intro m q _
    exact accepted_exchange hsend _ _ _ _ _
  obtain ⟨m, m', -, rfl, hfits⟩ := Listener.handle_fits haccepted h
  exact hfits.size

/-- So can the lengths of all replies to several messages. -/
theorem fits_transcript {σ : Type} {send : Sender σ} (hsend : ∀ s resolver out, Listener.Accepted (send s resolver out).1)
    (client : Endpoint) (state : Listener × σ) (msgs : List Octets) {reply : Octets}
    (h : some reply ∈ (transcript (Answerer.ofListener send client) state msgs).1) : reply.size ≤ maxMessageSize := by
  obtain ⟨k, hk⟩ := List.mem_iff_getElem?.1 h
  rw [getElem?_transcript] at hk
  obtain ⟨message, -, hreply⟩ := Option.map_eq_some_iff.1 hk
  exact fits_ofListener hsend hreply

/-! ## The main result -/

/-- What a connection does depends on the stream and not on its pieces: the messages of the stream are handed over in order,
up to the first one without a framed reply, and the replies are written in order, each behind its length. The state is the one
behind the last message handed over. It never reads without room. If no reply is too long, and none of a listener is, only a
message without a reply ends the connection early. -/
theorem serve_exact {σ : Type} (answer : Answerer σ) (s : σ) (inbound : Inbound) :
    let effects := (serve answer s .empty inbound).1
    let msgs := (messages inbound.rest).map List.toArray
    let replies := (transcript answer s msgs).1
    asked effects = msgs.take ((frames answer s msgs).length + 1) ∧
    written effects = (frames answer s msgs).flatten ∧
    (serve answer s .empty inbound).2 = stateAt answer s msgs ((frames answer s msgs).length + 1) ∧
    (∀ room octets, Effect.read room octets ∈ effects → 0 < room) ∧
    ((∀ reply, some reply ∈ replies → reply.size ≤ maxMessageSize) →
      frames answer s msgs = ((replies.takeWhile Option.isSome).filterMap id).map fun reply =>
        Octets.ofU16 (UInt16.ofNat reply.size) ++ reply.toList) ∧
    ∀ (τ : Type) (send : Sender τ) (client : Endpoint) (state : Listener × τ),
      (∀ t resolver out, Listener.Accepted (send t resolver out).1) →
      ∀ reply, some reply ∈ (transcript (Answerer.ofListener send client) state msgs).1 → reply.size ≤ maxMessageSize := by
  have h := serve_serves answer s .empty inbound
  rw [Buffer.held_empty, List.nil_append] at h
  exact ⟨h.asked, h.written, h.state, h.room, frames_of_fits,
    fun τ send client state hsend reply => fits_transcript hsend client state _⟩

/-- A message of one octet in two pieces, an empty message in the second piece and the third, and an octet of a length: who
sends back every message that is not empty, and counts them, writes the first message, gets the second one, and counts two. -/
theorem serve_exact_pieces :
    let back : Answerer Nat := fun n message => (if message.size = 0 then none else some message, n + 1)
    let inbound := Inbound.ofPieces [[0], [1, 7, 0], [0, 0]]
    let effects := (serve back 0 .empty inbound).1
    (∀ reply, some reply ∈ (transcript back 0 ((messages inbound.rest).map List.toArray)).1 → reply.size ≤ maxMessageSize) ∧
      asked effects = [#[7], #[]] ∧ written effects = [0, 1, 7] ∧ (serve back 0 .empty inbound).2 = 2 := by
  intro back inbound
  have hmsgs : (messages inbound.rest).map List.toArray = [#[7], #[]] := by
    have hrest : inbound.rest = [0, 1, 7, 0, 0, 0] := rfl
    have hfirst : next? [0, 1, 7, 0, 0, 0] = some ([7], [0, 0, 0]) := rfl
    have hsecond : next? [0, 0, 0] = some ([], [0]) := rfl
    rw [hrest, messages_of_some hfirst, messages_of_some hsecond, messages_of_none rfl]
    rfl
  have hfits : ∀ reply, some reply ∈ (transcript back 0 [#[7], #[]]).1 → reply.size ≤ maxMessageSize := by
    intro reply hmem
    have hreplies : (transcript back 0 [#[7], #[]]).1 = [some #[7], none] := rfl
    rw [hreplies] at hmem
    obtain rfl : reply = #[7] := by simpa using hmem
    decide
  have h := serve_exact back 0 inbound
  dsimp only at h ⊢
  rw [hmsgs] at h ⊢
  obtain ⟨hasked, hwritten, hstate, -, hframes, -⟩ := h
  rw [hframes hfits] at hasked hwritten hstate
  exact ⟨hfits, hasked, hwritten, hstate⟩

end DnsRelay.Connection
