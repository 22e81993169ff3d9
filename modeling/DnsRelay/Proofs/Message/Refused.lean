import DnsRelay.Proofs.Message.Written

/-!
# Calls that a writer refuses

What a writer answers is settled by the draft that it has written and the room that is left behind it (`Draft.verdict`,
`Writer.Written.answer_eq`). A call that it refuses leaves the draft as it is, so it can be left out: the other answers and the
message stay (`Writer.Written.transcript_of_thinned`). What stands behind the limit is never touched, not even while a call is
under way (`Writer.Within`).
-/

namespace DnsRelay

namespace Draft

/-- How many octets a call adds to a draft. -/
def growth (d : Draft) : Writer.Call → Nat
  | .addQuestion q => q.qname.wire.length + 4
  | .addAnswer x => (if d.firstName = some x.owner then 2 else x.owner.wire.length) + 10 + x.data.length
  | _ => 0

/-- A call can be taken where there is room for so many octets: no question comes behind an answer, the counts and the length of
the data fit into two octets, and there is room for what is added. -/
def Takes (d : Draft) (room : Nat) : Writer.Call → Prop
  | .addQuestion q => d.records = [] ∧ d.questions.length < 65535 ∧ d.growth (.addQuestion q) ≤ room
  | .addAnswer x => d.records.length < 65535 ∧ x.data.length ≤ 65535 ∧ d.growth (.addAnswer x) ≤ room
  | _ => True

/-- What a call is answered where there is room for so many octets. -/
def verdict (d : Draft) (room : Nat) : Writer.Call → Except WriteError Unit
  | .addQuestion q =>
    if d.records ≠ [] then .error .outOfOrder
    else if ¬d.questions.length < 65535 then .error .countOverflow
    else if room < d.growth (.addQuestion q) then .error .truncation
    else .ok ()
  | .addAnswer x =>
    if ¬d.records.length < 65535 then .error .countOverflow
    else if maxMessageSize < x.data.length ∨ room < d.growth (.addAnswer x) then .error .truncation
    else .ok ()
  | _ => .ok ()

/-- A call succeeds iff it can be taken. -/
theorem verdict_eq_ok_iff (d : Draft) (room : Nat) (call : Writer.Call) :
    d.verdict room call = .ok () ↔ d.Takes room call := by
  cases call with
  | addQuestion q =>
    simp only [verdict, Takes]
    by_cases hrecords : d.records = []
    · by_cases hcount : d.questions.length < 65535
      · by_cases hroom : room < d.growth (.addQuestion q)
        · simp [hrecords, hcount, hroom]
        · simp [hrecords, hcount, hroom, Nat.le_of_not_lt hroom]
      · simp [hrecords, hcount]
    · simp [hrecords]
  | addAnswer x =>
    simp only [verdict, Takes]
    by_cases hcount : d.records.length < 65535
    · by_cases hfits : maxMessageSize < x.data.length ∨ room < d.growth (.addAnswer x)
      · have hnot : ¬(x.data.length ≤ 65535 ∧ d.growth (.addAnswer x) ≤ room) := by
          rintro ⟨hdata, hroom⟩
          rcases hfits with hlong | hlarge
          · exact Nat.not_lt.2 hdata hlong
          · exact Nat.not_lt.2 hroom hlarge
        simp [hcount, hfits, hnot]
      · obtain ⟨hdata, hroom⟩ := not_or.1 hfits
        simp [hcount, hfits, Nat.le_of_not_lt hroom, show x.data.length ≤ 65535 from Nat.le_of_not_lt hdata]
    · simp [hcount]
  | _ => simp [verdict, Takes]

/-- The length of a question in a message. -/
theorem length_pieces (d : Draft) (q : Question) : q.pieces.flatten.length = d.growth (.addQuestion q) := by
  simp [Question.pieces, growth, Octets.length_ofU16]

/-- The length of an answer in a message. -/
theorem length_recordOctets (d : Draft) (x : Record) :
    (recordOctets d.firstName x).length = d.growth (.addAnswer x) := by
  have howner : (if d.firstName = some x.owner then Writer.firstNamePointer else x.owner.wire).length =
      if d.firstName = some x.owner then 2 else x.owner.wire.length := by
    split
    · rfl
    · rfl
  simp only [recordOctets, Writer.answerPieces, growth, List.flatten_cons, List.flatten_nil, List.length_append, howner,
    Octets.length_ofU16, Octets.length_ofU32, List.length_nil]
  omega

end Draft

namespace Writer

/-! ## What stays in a buffer -/

/-- A writer keeps to a bound in a buffer: its cursor is between the end of the header and the bound, and what the buffer held
from the bound on is still there. -/
structure Within (w : Writer) (buffer : Octets) (bound : Nat) : Prop where
  header : headerSize ≤ w.cursor
  cursor : w.cursor ≤ bound
  size : w.buffer.size = buffer.size
  beyond : ∀ i, bound ≤ i → w.buffer[i]? = buffer[i]?

/-- A writer with a header in front of its cursor, and the octets of a buffer from a bound on behind its limit, keeps to the
bound. -/
theorem Holds.within {w : Writer} {written free : List UInt8} {buffer : Octets} {bound : Nat}
    (h : w.Holds written free (buffer.toList.drop bound)) (hbound : bound ≤ buffer.size) (hlimit : w.limit = bound)
    (hheader : headerSize ≤ written.length) : w.Within buffer bound := by
  have hcursor := h.cursor
  have hfront : (written ++ free).length = bound := by
    rw [List.length_append, ← h.limit, hlimit]
  refine ⟨hcursor ▸ hheader, by have hfree := h.limit; omega, ?_, ?_⟩
  · rw [← Array.length_toList, h.buffer, List.length_append, hfront, List.length_drop, Array.length_toList]
    omega
  · intro i hi
    rw [← Array.getElem?_toList, ← Array.getElem?_toList, h.buffer,
      List.getElem?_append_right (by rw [hfront]; exact hi), hfront, List.getElem?_drop, Nat.add_sub_cancel' hi]

/-- Pieces that are written, all of them or the first ones that fit, stand behind what was written before. -/
theorem Holds.putAll {w : Writer} {written free beyond : List UInt8} (h : w.Holds written free beyond)
    (pieces : List (List UInt8)) :
    ∃ new free', (w.putAll pieces).2.Holds (written ++ new) free' beyond := by
  induction pieces generalizing w written free with
  | nil => exact ⟨[], free, by rw [List.append_nil]; exact h⟩
  | cons piece pieces ih =>
    by_cases hfit : w.cursor + piece.length ≤ w.limit
    · obtain ⟨new, free', hnew⟩ := ih (h.overwrite hfit)
      refine ⟨piece ++ new, free', ?_⟩
      rw [Writer.putAll, if_pos hfit, ← List.append_assoc]
      exact hnew
    · refine ⟨[], free, ?_⟩
      rw [Writer.putAll, if_neg hfit, List.append_nil]
      exact h

/-- Pieces leave the limit. -/
theorem limit_putAll (w : Writer) (pieces : List (List UInt8)) : (w.putAll pieces).2.limit = w.limit := by
  induction pieces generalizing w with
  | nil => rfl
  | cons piece pieces ih =>
    rw [putAll]
    split
    · exact ih _
    · rfl

/-- Pieces leave the limit, whether they fit or not. -/
theorem limit_put (w : Writer) (pieces : List (List UInt8)) : (w.put pieces).2.limit = w.limit := by
  have hlimit := limit_putAll w pieces
  rw [put]
  split <;>
  · rename_i hput
    rw [hput] at hlimit
    exact hlimit

/-- A call leaves the limit. -/
theorem limit_answer (w : Writer) (call : Call) : (w.answer call).2.limit = w.limit := by
  cases call with
  | addQuestion q =>
    have hlimit := limit_put w q.pieces
    rw [answer, addQuestion]
    split
    · rfl
    · split
      · rfl
      · split <;>
        · rename_i hput
          rw [hput] at hlimit
          exact hlimit
  | addAnswer x =>
    have hlimit := limit_put w (answerPieces w.firstName x.owner x.type x.cls x.ttl x.data)
    rw [answer, addAnswer]
    split
    · rfl
    · split
      · rfl
      · split <;>
        · rename_i hput
          rw [hput] at hlimit
          exact hlimit
  | _ => rfl

/-- Several calls leave the limit. -/
theorem limit_stateAt (w : Writer) (calls : List Call) (k : Nat) : (stateAt answer w calls k).limit = w.limit :=
  stateAt_induction (P := fun now => now.limit = w.limit) (fun now call h => (limit_answer now call).trans h) (Nat.zero_le k)
    (congrArg limit (stateAt_zero answer w calls))

/-! ## What a writer answers -/

namespace Written

variable {w w' : Writer} {d : Draft} {beyond beyond' : List UInt8}

/-- The room behind the cursor is what the octets of the draft leave. -/
theorem put_eq (h : w.Written d beyond) (pieces : List (List UInt8)) :
    (w.put pieces).1 = !decide (w.limit - w.cursor < pieces.flatten.length) := by
  obtain ⟨free, hholds⟩ := h.holds
  have hcursor := hholds.cursor
  have hlimit := hholds.limit
  rcases put_cases hholds pieces with ⟨hfit, buffer, cursor, hput, -⟩ | ⟨hlt, buffer, free', hput, -⟩
  · rw [hput, decide_eq_false (by omega)]
    rfl
  · rw [hput, decide_eq_true (by omega)]
    rfl

/-- A question is answered as the draft says. -/
theorem addQuestion_eq (h : w.Written d beyond) (q : Question) :
    (w.addQuestion q).1 = d.verdict (w.limit - w.cursor) (.addQuestion q) := by
  have hput := h.put_eq q.pieces
  rw [d.length_pieces] at hput
  rw [addQuestion, Draft.verdict]
  by_cases hrecords : d.records = []
  · have hpart : w.part = .questions := by rw [h.part, if_pos hrecords]
    rw [if_neg (not_not.2 hpart), if_neg (not_not.2 hrecords)]
    by_cases hcount : d.questions.length < 65535
    · rw [if_neg (fun hlast => (CountAux.eq_last_iff h.questionCount).1 hlast hcount), if_neg (not_not.2 hcount)]
      split
      · rename_i hfalse
        rw [hfalse] at hput
        rw [if_pos (by simpa using hput)]
      · rename_i htrue
        rw [htrue] at hput
        show Except.ok () = _
        rw [if_neg (by simpa using hput)]
    · rw [if_pos ((CountAux.eq_last_iff h.questionCount).2 hcount), if_pos hcount]
  · have hpart : w.part = .answers := by rw [h.part, if_neg hrecords]
    rw [if_pos (by rw [hpart]; decide), if_pos hrecords]

/-- An answer record is answered as the draft says. -/
theorem addAnswer_eq (h : w.Written d beyond) (x : Record) :
    (w.addAnswer x.owner x.type x.cls x.ttl x.data).1 = d.verdict (w.limit - w.cursor) (.addAnswer x) := by
  have hput := h.put_eq (answerPieces w.firstName x.owner x.type x.cls x.ttl x.data)
  rw [h.firstName] at hput
  have hlength := d.length_recordOctets x
  rw [Draft.recordOctets] at hlength
  rw [hlength] at hput
  rw [addAnswer, Draft.verdict, h.firstName]
  by_cases hcount : d.records.length < 65535
  · rw [if_neg (fun hlast => (CountAux.eq_last_iff h.answerCount).1 hlast hcount), if_neg (not_not.2 hcount)]
    by_cases hdata : maxMessageSize < x.data.length
    · rw [if_pos hdata, if_pos (Or.inl hdata)]
    · rw [if_neg hdata]
      split
      · rename_i hfalse
        rw [hfalse] at hput
        rw [if_pos (Or.inr (by simpa using hput))]
      · rename_i htrue
        rw [htrue] at hput
        show Except.ok () = _
        rw [if_neg (not_or.2 ⟨hdata, by simpa using hput⟩)]
  · rw [if_pos ((CountAux.eq_last_iff h.answerCount).2 hcount), if_pos hcount]

/-- Every call is answered as the draft says. -/
theorem answer_eq (h : w.Written d beyond) (call : Call) :
    (w.answer call).1 = d.verdict (w.limit - w.cursor) call := by
  cases call with
  | addQuestion q => exact h.addQuestion_eq q
  | addAnswer x => exact h.addAnswer_eq x
  | _ => rfl

/-- Writers with one limit that have written one draft answer alike. -/
theorem answer_congr (h : w.Written d beyond) (h' : w'.Written d beyond') (hlimit : w'.limit = w.limit) (call : Call) :
    (w'.answer call).1 = (w.answer call).1 := by
  rw [h.answer_eq, h'.answer_eq, hlimit, h.cursor_eq, h'.cursor_eq]

/-- Writers with one limit that have written one draft differ in their buffers only, and not in front of the cursor. -/
theorem eq_of_limit (h : w.Written d beyond) (h' : w'.Written d beyond') (hlimit : w'.limit = w.limit) :
    w' = { w with buffer := w'.buffer } ∧ w'.octets = w.octets := by
  refine ⟨?_, Array.toList_inj.1 (h'.octets_eq.trans h.octets_eq.symm)⟩
  have hcursor : w'.cursor = w.cursor := h'.cursor_eq.trans h.cursor_eq.symm
  have hpart : w'.part = w.part := h'.part.trans h.part.symm
  have hquestions : w'.questionCount = w.questionCount :=
    UInt16.toNat_inj.1 (h'.questionCount.trans h.questionCount.symm)
  have hanswers : w'.answerCount = w.answerCount := UInt16.toNat_inj.1 (h'.answerCount.trans h.answerCount.symm)
  have hfirst : w'.firstName = w.firstName := h'.firstName.trans h.firstName.symm
  rw [← hcursor, ← hpart, ← hquestions, ← hanswers, ← hfirst, ← hlimit]

/-- After some of several calls a writer has written the draft behind these calls and their answers. -/
theorem stateAt (h : w.Written Draft.blank beyond) (calls : List Call) (k : Nat) :
    (DnsRelay.stateAt Writer.answer w calls k).Written
      (Draft.ofCalls ((calls.zip (DnsRelay.transcript Writer.answer w calls).1).take k)) beyond := by
  have hwritten := h.transcript (calls.take k)
  rw [transcript_take, List.zip, ← List.take_zipWith] at hwritten
  exact hwritten

end Written

/-! ## Leaving out what was refused -/

/-- Some of the calls that were refused are left out of several calls and their answers. -/
inductive Thinned : List (Call × Except WriteError Unit) → List (Call × Except WriteError Unit) → Prop where
  | nil : Thinned [] []
  | keep {told rest} (call result) : Thinned told rest → Thinned ((call, result) :: told) ((call, result) :: rest)
  | leave {told rest} (call e) : Thinned told rest → Thinned ((call, .error e) :: told) rest

/-- All of the calls that were refused can be left out. -/
theorem Thinned.filter_isOk (told : List (Call × Except WriteError Unit)) : Thinned told (told.filter (·.2.isOk)) := by
  induction told with
  | nil => exact .nil
  | cons first told ih =>
    obtain ⟨call, result⟩ := first
    cases result with
    | error e => exact .leave call e ih
    | ok value => exact .keep call (.ok value) ih

/-- If calls that were refused are left out, then the others are answered as before, and the same draft is written. -/
theorem Written.transcript_of_thinned {w w' : Writer} {d : Draft} {beyond beyond' : List UInt8} (h : w.Written d beyond)
    (h' : w'.Written d beyond') (hlimit : w'.limit = w.limit) {calls : List Call} {rest : List (Call × Except WriteError Unit)}
    (hrest : Thinned (calls.zip (DnsRelay.transcript Writer.answer w calls).1) rest) :
    (DnsRelay.transcript Writer.answer w' (rest.map (·.1))).1 = rest.map (·.2) ∧
      ∃ d', (DnsRelay.transcript Writer.answer w calls).2.Written d' beyond ∧
        (DnsRelay.transcript Writer.answer w' (rest.map (·.1))).2.Written d' beyond' := by
  induction calls generalizing w w' d rest with
  | nil =>
    cases hrest
    exact ⟨rfl, d, h, h'⟩
  | cons call calls ih =>
    have hsame := h.answer_congr h' hlimit call
    have hnext := h.answer call
    rw [transcript_cons, List.zip_cons_cons] at hrest
    rw [transcript_cons]
    generalize hresult : (w.answer call).1 = result at hrest hsame hnext
    cases hrest with
    | keep _ _ hrest =>
      have hnext' := h'.answer call
      rw [hsame] at hnext'
      obtain ⟨hanswers, hdraft⟩ := ih hnext hnext' ((limit_answer w' call).trans (hlimit.trans (limit_answer w call).symm)) hrest
      rw [List.map_cons, transcript_cons, hsame, hanswers]
      exact ⟨rfl, hdraft⟩
    | leave _ e hrest => exact ih hnext h' (hlimit.trans (limit_answer w call).symm) hrest

/-- A call that is refused leaves no trace, and nothing is written past the limit.
1. Without some or all of the refused calls, the others are answered alike, and the message is the same.
2. At all times, also amid the pieces of a call, the octets behind the limit are those of the buffer.
3. A call is taken iff it is in order, within the counts, and fits.
4. A refused call changes only octets behind the cursor. -/
theorem refused_traceless (buffer : Octets) (limit : Nat) (hlimit : headerSize ≤ limit) (calls : List Call) :
    buffer.size < headerSize ∧ make buffer limit = .error .truncation ∨
    ∃ w, make buffer limit = .ok w ∧
      let bound := min limit buffer.size
      let told := calls.zip (transcript answer w calls).1
      let written := (transcript answer w calls).2
      Thinned told (told.filter (·.2.isOk)) ∧
      (∀ rest, Thinned told rest →
        (transcript answer w (rest.map (·.1))).1 = rest.map (·.2) ∧
          (transcript answer w (rest.map (·.1))).2.finish = written.finish ∧
          (transcript answer w (rest.map (·.1))).2.octets = written.octets) ∧
      ∀ k,
        let now := stateAt answer w calls k
        let next := stateAt answer w calls (k + 1)
        let d := Draft.ofCalls (told.take k)
        (now.Within buffer bound ∧ ∀ pieces, (now.putAll pieces).2.Within buffer bound) ∧
        now.firstName = d.questions.head?.map (·.qname) ∧
        ∀ call, calls[k]? = some call →
          (told[k]? = some (call, .ok ()) ↔ d.Takes (bound - now.cursor) call) ∧
          ∀ e, told[k]? = some (call, .error e) →
            next = { now with buffer := next.buffer } ∧ next.octets = now.octets := by
  rcases Nat.lt_or_ge buffer.size headerSize with hshort | hbuffer
  · exact Or.inl ⟨hshort, if_pos (Nat.lt_of_le_of_lt (Nat.min_le_right ..) hshort)⟩
  obtain ⟨w, hmake, hbound, hblank⟩ := exists_make_written hbuffer hlimit
  refine Or.inr ⟨w, hmake, Thinned.filter_isOk _, ?_, ?_⟩
  · intro rest hrest
    obtain ⟨hanswers, d, hwritten, hwritten'⟩ := hblank.transcript_of_thinned hblank rfl hrest
    refine ⟨hanswers, hwritten'.cursor_eq.trans hwritten.cursor_eq.symm, ?_⟩
    exact Array.toList_inj.1 (hwritten'.octets_eq.trans hwritten.octets_eq.symm)
  · intro k now next d
    have hnow : now.Written d _ := hblank.stateAt calls k
    have hnext := hblank.stateAt calls (k + 1)
    have hlimitNow : now.limit = min limit buffer.size := (limit_stateAt w calls k).trans hbound
    obtain ⟨free, hholds⟩ := hnow.holds
    have hheader : headerSize ≤ d.octets.length := by
      rw [Draft.octets, List.length_append]
      exact Nat.le_add_right headerSize _
    refine ⟨⟨hholds.within (Nat.min_le_right ..) hlimitNow hheader, ?_⟩, hnow.firstName, ?_⟩
    · intro pieces
      obtain ⟨new, free', hnew⟩ := hholds.putAll pieces
      refine hnew.within (Nat.min_le_right ..) ((limit_putAll now pieces).trans hlimitNow) ?_
      rw [List.length_append]
      exact Nat.le_add_right_of_le hheader
    · intro call hcall
      have htold : (calls.zip (transcript answer w calls).1)[k]? = some (call, (now.answer call).1) := by
        rw [List.getElem?_zip_eq_some, getElem?_transcript, hcall]
        exact ⟨rfl, rfl⟩
      refine ⟨?_, ?_⟩
      · rw [htold, hnow.answer_eq, hlimitNow, ← Draft.verdict_eq_ok_iff]
        simp only [Option.some.injEq, Prod.mk.injEq, true_and]
      · intro e he
        have hsame : Draft.ofCalls ((calls.zip (transcript answer w calls).1).take (k + 1)) = d := by
          rw [List.take_add_one, he, Option.toList_some, Draft.ofCalls, List.foldl_append]
          rfl
        rw [hsame] at hnext
        exact hnow.eq_of_limit hnext ((limit_stateAt w calls (k + 1)).trans (limit_stateAt w calls k).symm)

/-- A buffer of 50 octets may be filled up to the 36th. The first answer does not fit, and neither does the first question, so the
name of the second question is the one that pointers lead to; only an answer with this name fits behind it. The question that
comes last is too late. -/
theorem refused_traceless_mixed :
    let small : Name := ⟨[1, 97, 0]⟩
    let large : Name := ⟨20 :: List.replicate 20 98 ++ [0]⟩
    let question (name : Name) : Question := ⟨name, RRType.a, RRClass.internet⟩
    let record (owner : Name) (data : List UInt8) : Record := ⟨owner, RRType.a, RRClass.internet, Ttl.ofWire 60, data⟩
    let buffer : Octets := Array.replicate 50 255
    let calls : List Call := [.addAnswer (record small (List.replicate 30 1)), .addQuestion (question large),
      .addQuestion (question small), .addAnswer (record large [192, 0, 2, 1]), .addAnswer (record small [192, 0, 2, 1]),
      .addQuestion (question small), .setId 7]
    let rest : List Call := [.addQuestion (question small), .addAnswer (record small [192, 0, 2, 1]), .setId 7]
    headerSize ≤ 36 ∧
      ∃ w, make buffer 36 = .ok w ∧
        (transcript answer w calls).1 = [.error .truncation, .error .truncation, .ok (), .error .truncation, .ok (),
          .error .outOfOrder, .ok ()] ∧
        (transcript answer w rest).1 = [.ok (), .ok (), .ok ()] ∧
        (transcript answer w rest).2.finish = 35 ∧
        (transcript answer w rest).2.octets = (transcript answer w calls).2.octets ∧
        (transcript answer w calls).2.Within buffer 36 := by
  intro small large question record buffer calls rest
  let made : Writer := ⟨Array.replicate 12 0 ++ Array.replicate 38 255, 12, 36, .questions, 0, 0, none⟩
  have hmade : make buffer 36 = .ok made := by decide +kernel
  have hanswers : (transcript answer made calls).1 = [.error .truncation, .error .truncation, .ok (), .error .truncation, .ok (),
      .error .outOfOrder, .ok ()] := by decide +kernel
  have hstop : (transcript answer made calls).2.finish = 35 := by decide +kernel
  rcases refused_traceless buffer 36 (by decide) calls with ⟨hshort, -⟩ | ⟨w, hmake, hthinned, hrest, hkept⟩
  · exact absurd hshort (by decide)
  obtain rfl : made = w := Except.ok.inj (hmade.symm.trans hmake)
  rw [hanswers] at hthinned hrest
  obtain ⟨hsame, hfinish, hoctets⟩ := hrest _ hthinned
  exact ⟨by decide, made, hmade, hanswers, hsame, hfinish.trans hstop, hoctets, (hkept 7).1.1⟩

end Writer

end DnsRelay
