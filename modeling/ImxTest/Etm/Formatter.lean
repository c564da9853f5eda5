import Mathlib.Algebra.Ring.Nat
import Mathlib.Data.List.Basic
import Mathlib.Data.List.FinRange
import Mathlib.Tactic.Common

/-!
# The trace formatter of `etm.c`

A formatter frame is sixteen bytes: fifteen positions and a last byte that holds
one auxiliary bit for each even position.  `get_byte_from_formatter` walks over
the positions and returns the data bytes of the selected trace sources.  It keeps
the current ID twice: `state->sourceid` changes at the ID byte, and a local copy,
which is the ID that the next data byte belongs to, may follow one data byte
later.  The local copy is taken anew from `state->sourceid` at every call and
after every ignored data byte.
-/

set_option autoImplicit false

namespace ImxTest.Etm

abbrev Byte : Type := BitVec 8

abbrev Word : Type := BitVec 32

abbrev Frame : Type := Fin 16 → Byte

/-- The part of `struct state` that `get_byte_from_formatter` uses. -/
structure Formatter where
  packet : Frame
  index : Fin 15
  sourceid : Nat
  sourceidMatch : Word

/-- Sixteen calls of `getchar`; no frame when the input ends before the last. -/
def readFrame (input : List Byte) : Option (Frame × List Byte) :=
  if enough : 16 ≤ input.length then
    some (fun i => input.get ⟨i, by omega⟩, input.drop 16)
  else none

namespace Formatter

def start (sourceidMatch : Word) : Formatter where
  packet := fun _ => 0
  index := 0
  sourceid := 0
  sourceidMatch := sourceidMatch

/-- `(1 << sourceid) & state->sourceid_match`. -/
def selects (formatter : Formatter) (sourceid : Nat) : Bool :=
  ((1#32 <<< sourceid) &&& formatter.sourceidMatch) != 0

/-- What one pass through the body of `while (1)` does: end of input, a byte
returned, or another pass with a new local `sourceid`. -/
inductive Pass where
  | eof
  | ret (ch : Byte) (formatter : Formatter) (input : List Byte)
  | again (formatter : Formatter) (sourceid : Nat) (input : List Byte)

def deliver (formatter : Formatter) (sourceid : Nat) (ch : Byte) (input : List Byte) : Pass :=
  if formatter.selects sourceid then .ret ch formatter input
  else .again formatter formatter.sourceid input

/-- The frame that holds the current position: a new one at position 0. -/
def frameAt (formatter : Formatter) (input : List Byte) : Option (Frame × List Byte) :=
  if formatter.index = 0 then readFrame input else some (formatter.packet, input)

def moveOn (formatter : Formatter) (packet : Frame) : Formatter :=
  { formatter with packet := packet, index := formatter.index + 1 }

def auxBit (packet : Frame) (i : Fin 15) : Byte :=
  (packet 15 >>> (i.val / 2)) &&& 1

def pass (formatter : Formatter) (sourceid : Nat) (input : List Byte) : Pass :=
  match formatter.frameAt input with
  | none => .eof
  | some (packet, input) =>
      let i := formatter.index
      let ch := packet i.castSucc
      let formatter := formatter.moveOn packet
      if i.val % 2 = 0 then
        let ebit := auxBit packet i
        if ch &&& 1 ≠ 0 then
          let id := (ch >>> 1).toNat
          if formatter.sourceid ≠ id then
            .again { formatter with sourceid := id } (if ebit = 0 then id else sourceid) input
          else .again formatter sourceid input
        else formatter.deliver sourceid (ch ||| ebit) input
      else formatter.deliver sourceid ch input

/-- Bytes of input and positions of the current frame that are still to come. -/
def left (formatter : Formatter) (input : List Byte) : Nat :=
  input.length + (15 - formatter.index.val) % 15

theorem readFrame_length {input rest : List Byte} {packet : Frame}
    (read : readFrame input = some (packet, rest)) : input.length = rest.length + 16 := by
  unfold readFrame at read
  split at read
  · obtain ⟨_, rfl⟩ := Prod.mk.inj (Option.some.inj read)
    rw [List.length_drop]
    omega
  · simp at read

theorem left_moveOn {formatter : Formatter} {input rest : List Byte} {packet : Frame}
    (read : formatter.frameAt input = some (packet, rest)) :
    (formatter.moveOn packet).left rest < formatter.left input := by
  have bound := formatter.index.isLt
  have next : (formatter.index + 1).val = (formatter.index.val + 1) % 15 := by
    rw [Fin.val_add]
    rfl
  unfold frameAt at read
  simp only [left, moveOn, next]
  split at read
  · next atStart =>
      have taken := readFrame_length read
      have zero : formatter.index.val = 0 := by rw [atStart]; rfl
      omega
  · next inside =>
      obtain ⟨_, rfl⟩ := Prod.mk.inj (Option.some.inj read)
      have positive : formatter.index.val ≠ 0 := by
        intro zero
        exact inside (Fin.ext zero)
      omega

theorem left_deliver {formatter : Formatter} {sourceid : Nat} {ch : Byte} {input : List Byte}
    {bound : Nat} (less : formatter.left input < bound) :
    match formatter.deliver sourceid ch input with
    | .eof => True
    | .ret _ next rest => next.left rest < bound
    | .again next _ rest => next.left rest < bound := by
  unfold deliver
  cases formatter.selects sourceid with
  | true => exact less
  | false => exact less

theorem left_pass (formatter : Formatter) (sourceid : Nat) (input : List Byte) :
    match formatter.pass sourceid input with
    | .eof => True
    | .ret _ next rest => next.left rest < formatter.left input
    | .again next _ rest => next.left rest < formatter.left input := by
  unfold pass
  cases read : formatter.frameAt input with
  | none => trivial
  | some found =>
      obtain ⟨packet, rest⟩ := found
      have less := left_moveOn read
      dsimp only
      by_cases even : formatter.index.val % 2 = 0
      · rw [if_pos even]
        by_cases id : packet formatter.index.castSucc &&& 1 ≠ 0
        · rw [if_pos id]
          by_cases changed : (formatter.moveOn packet).sourceid ≠
              (packet formatter.index.castSucc >>> 1).toNat
          · rw [if_pos changed]
            exact less
          · rw [if_neg changed]
            exact less
        · rw [if_neg id]
          exact left_deliver less
      · rw [if_neg even]
        exact left_deliver less

def loop (formatter : Formatter) (sourceid : Nat) (input : List Byte) :
    Option (Byte × Formatter × List Byte) :=
  match _done : formatter.pass sourceid input with
  | .eof => none
  | .ret ch next rest => some (ch, next, rest)
  | .again next id rest => next.loop id rest
termination_by formatter.left input
decreasing_by
  have less := formatter.left_pass sourceid input
  rw [_done] at less
  exact less

end Formatter

/-- `none` is the negative value that `getchar` returns at the end of the input. -/
def getByteFromFormatter (formatter : Formatter) (input : List Byte) :
    Option (Byte × Formatter × List Byte) :=
  formatter.loop formatter.sourceid input

namespace Formatter

theorem left_loop (formatter : Formatter) (sourceid : Nat) (input : List Byte)
    {ch : Byte} {next : Formatter} {rest : List Byte}
    (returned : formatter.loop sourceid input = some (ch, next, rest)) :
    next.left rest < formatter.left input := by
  fun_induction formatter.loop sourceid input with
  | case1 formatter sourceid input done => cases returned
  | case2 formatter sourceid input ch' next' rest' done =>
      have less := formatter.left_pass sourceid input
      rw [done] at less
      cases returned
      exact less
  | case3 formatter sourceid input next' id rest' done ih =>
      have less := formatter.left_pass sourceid input
      rw [done] at less
      exact Nat.lt_trans (ih returned) less

end Formatter

def formatterBytes (formatter : Formatter) (input : List Byte) : List Byte :=
  match _returned : getByteFromFormatter formatter input with
  | none => []
  | some (ch, next, rest) => ch :: formatterBytes next rest
termination_by formatter.left input
decreasing_by exact Formatter.left_loop _ _ _ _returned

/-! ## The reference de-multiplexer -/

inductive Symbol where
  | data (byte : Byte)
  | idNow (id : Nat)
  | idAfterNext (id : Nat)

def auxSet (frame : Frame) (i : Fin 15) : Bool :=
  (frame 15).getLsbD (i.val / 2)

def symbol (frame : Frame) (i : Fin 15) : Symbol :=
  let byte := frame i.castSucc
  if i.val % 2 = 1 then .data byte
  else if byte.getLsbD 0 then
    if auxSet frame i then .idAfterNext (byte.toNat / 2) else .idNow (byte.toNat / 2)
  else .data (if auxSet frame i then byte + 1 else byte)

def frameSymbols (frame : Frame) : List Symbol :=
  (List.finRange 15).map (symbol frame)

/-- The data bytes with the ID each belongs to.  `next` is an ID that the data
byte after the coming one will belong to. -/
def demultiplex : Nat → Option Nat → List Symbol → List (Nat × Byte)
  | _, _, [] => []
  | id, next, .data byte :: rest => (id, byte) :: demultiplex (next.getD id) none rest
  | _, _, .idNow id :: rest => demultiplex id none rest
  | id, _, .idAfterNext later :: rest => demultiplex id (some later) rest

def selectedBytes (sourceidMatch : Word) (tagged : List (Nat × Byte)) : List Byte :=
  (tagged.filter fun entry => sourceidMatch.getLsbD entry.1).map Prod.snd

/-- IDs are below 31, and an ID byte at position 14 does not wait for a data byte
of the next frame. -/
structure WellFormed (frame : Frame) : Prop where
  idBelow : ∀ i : Fin 15, i.val % 2 = 0 → (frame i.castSucc).getLsbD 0 = true →
    (frame i.castSucc).toNat / 2 < 31
  lastNow : (frame 14).getLsbD 0 = true → auxSet frame 14 = false

/-! ## The calls return what the reference selects -/

namespace Formatter

/-- The bytes that the rest of a call and the calls after it return. -/
def restBytes (formatter : Formatter) (sourceid : Nat) (input : List Byte) : List Byte :=
  match formatter.loop sourceid input with
  | none => []
  | some (ch, next, rest) => ch :: formatterBytes next rest

theorem formatterBytes_eq (formatter : Formatter) (input : List Byte) :
    formatterBytes formatter input = formatter.restBytes formatter.sourceid input := by
  rw [formatterBytes, restBytes, getByteFromFormatter]
  split
  · next ended => rw [ended]
  · next returned => rw [returned]

def resume : Pass → List Byte
  | .eof => []
  | .ret ch next rest => ch :: next.restBytes next.sourceid rest
  | .again next id rest => next.restBytes id rest

theorem restBytes_eq_resume (formatter : Formatter) (sourceid : Nat) (input : List Byte) :
    formatter.restBytes sourceid input = resume (formatter.pass sourceid input) := by
  rw [restBytes, loop]
  split
  · next ended =>
      split at ended
      · next done => rw [done]; rfl
      · cases ended
      · next done => rw [done, resume, restBytes, ended]
  · next returned =>
      split at returned
      · cases returned
      · next done =>
          cases returned
          rw [done, resume, formatterBytes_eq]
      · next done => rw [done, resume, restBytes, returned]

theorem selects_eq (formatter : Formatter) (sourceid : Nat) :
    formatter.selects sourceid = formatter.sourceidMatch.getLsbD sourceid := by
  rw [selects, Bool.eq_iff_iff, bne_iff_ne]
  constructor
  · intro nonzero
    by_contra unset
    apply nonzero
    apply BitVec.eq_of_getLsbD_eq
    intro j bound
    by_cases same : sourceid = j
    · subst same
      simp_all
    · have later : ¬ j - sourceid = 0 ∨ j < sourceid := by omega
      rcases later with later | later
      · simp [later]
      · simp [later]
  · intro set zero
    have bound := BitVec.lt_of_getLsbD set
    have bit := congrArg (fun word => word.getLsbD sourceid) zero
    simp only [BitVec.getLsbD_and, set, BitVec.getLsbD_shiftLeft, bound] at bit
    simp at bit

theorem resume_deliver (formatter : Formatter) (sourceid : Nat) (ch : Byte)
    (input : List Byte) :
    resume (formatter.deliver sourceid ch input) =
      (if formatter.sourceidMatch.getLsbD sourceid then [ch] else []) ++
        formatter.restBytes formatter.sourceid input := by
  rw [deliver, selects_eq]
  cases formatter.sourceidMatch.getLsbD sourceid with
  | true => rfl
  | false => rfl

theorem and_one (byte : Byte) : byte &&& 1 = if byte.getLsbD 0 then 1 else 0 := by
  apply BitVec.eq_of_getLsbD_eq
  intro j bound
  cases j with
  | zero => cases bit : byte.getLsbD 0 <;> simp_all
  | succ j => split <;> simp

theorem or_one (byte : Byte) (even : byte.getLsbD 0 = false) : byte ||| 1 = byte + 1 := by
  revert byte
  decide

theorem auxBit_eq (packet : Frame) (i : Fin 15) :
    auxBit packet i = if auxSet packet i then 1 else 0 := by
  rw [auxBit, and_one, auxSet]
  simp

theorem or_auxBit (packet : Frame) (i : Fin 15) {byte : Byte}
    (even : byte.getLsbD 0 = false) :
    byte ||| auxBit packet i = if auxSet packet i then byte + 1 else byte := by
  rw [auxBit_eq]
  cases auxSet packet i with
  | true => exact or_one byte even
  | false => simp

theorem shiftRight_one (byte : Byte) : (byte >>> 1).toNat = byte.toNat / 2 := by
  simp [Nat.shiftRight_eq_div_pow]

theorem symbol_data {frame : Frame} {i : Fin 15} {byte : Byte}
    (stands : symbol frame i = .data byte) :
    (i.val % 2 = 1 ∧ byte = frame i.castSucc) ∨
      (i.val % 2 = 0 ∧ (frame i.castSucc).getLsbD 0 = false ∧
        byte = if auxSet frame i then frame i.castSucc + 1 else frame i.castSucc) := by
  unfold symbol at stands
  dsimp only at stands
  split at stands
  · next odd =>
      cases stands
      exact .inl ⟨odd, rfl⟩
  · next even =>
      split at stands
      · split at stands
        · cases stands
        · cases stands
      · next data =>
          cases stands
          exact .inr ⟨by omega, by simpa using data, rfl⟩

theorem symbol_idNow {frame : Frame} {i : Fin 15} {id : Nat}
    (stands : symbol frame i = .idNow id) :
    i.val % 2 = 0 ∧ (frame i.castSucc).getLsbD 0 = true ∧
      id = (frame i.castSucc).toNat / 2 ∧ auxSet frame i = false := by
  unfold symbol at stands
  dsimp only at stands
  split at stands
  · cases stands
  · next even =>
      split at stands
      · next isId =>
          split at stands
          · cases stands
          · next now =>
              cases stands
              exact ⟨by omega, isId, rfl, by simpa using now⟩
      · cases stands

theorem symbol_idAfterNext {frame : Frame} {i : Fin 15} {id : Nat}
    (stands : symbol frame i = .idAfterNext id) :
    i.val % 2 = 0 ∧ (frame i.castSucc).getLsbD 0 = true ∧
      id = (frame i.castSucc).toNat / 2 ∧ auxSet frame i = true := by
  unfold symbol at stands
  dsimp only at stands
  split at stands
  · cases stands
  · next even =>
      split at stands
      · next isId =>
          split at stands
          · next after =>
              cases stands
              exact ⟨by omega, isId, rfl, after⟩
          · cases stands
      · cases stands

section Walk
variable {formatter : Formatter} {sourceid : Nat} {input rest : List Byte} {frame : Frame}

/-- A pass over a data byte, whether it is returned or ignored, takes the local ID
anew from the state. -/
theorem restBytes_data {byte : Byte} (read : formatter.frameAt input = some (frame, rest))
    (stands : symbol frame formatter.index = .data byte) :
    formatter.restBytes sourceid input =
      (if formatter.sourceidMatch.getLsbD sourceid then [byte] else []) ++
        (formatter.moveOn frame).restBytes formatter.sourceid rest := by
  rw [restBytes_eq_resume, pass, read]
  dsimp only
  rcases symbol_data stands with ⟨odd, rfl⟩ | ⟨even, data, rfl⟩
  · rw [if_neg (by omega), resume_deliver]
    rfl
  · have none : frame formatter.index.castSucc &&& 1 = 0 := by rw [and_one, data]; rfl
    rw [if_pos even, if_neg (by rw [none]; simp), resume_deliver, or_auxBit frame _ data]
    rfl

theorem restBytes_id {id : Nat} (read : formatter.frameAt input = some (frame, rest))
    (even : formatter.index.val % 2 = 0)
    (isId : (frame formatter.index.castSucc).getLsbD 0 = true)
    (value : id = (frame formatter.index.castSucc).toNat / 2) :
    formatter.restBytes sourceid input =
      { formatter.moveOn frame with sourceid := id }.restBytes
        (if auxSet frame formatter.index ∨ formatter.sourceid = id then sourceid else id)
        rest := by
  rw [← shiftRight_one] at value
  have one : frame formatter.index.castSucc &&& 1 ≠ 0 := by rw [and_one, isId]; simp
  rw [restBytes_eq_resume, pass, read]
  dsimp only
  rw [if_pos even, if_pos one, ← value, auxBit_eq]
  by_cases same : formatter.sourceid = id
  · have kept : (formatter.moveOn frame).sourceid = id := same
    rw [if_neg (by simp [kept]), if_pos (.inr same), resume, ← kept]
  · have new : (formatter.moveOn frame).sourceid ≠ id := same
    rw [if_pos new, resume]
    cases auxSet frame formatter.index with
    | true => simp
    | false => simp [same]

theorem moveOn_index_val (formatter : Formatter) (frame : Frame) :
    (formatter.moveOn frame).index.val = (formatter.index.val + 1) % 15 := by
  simp only [moveOn, Fin.val_add]
  rfl

def symbolsFrom (frame : Frame) (i : Nat) : List Symbol :=
  ((List.finRange 15).drop i).map (symbol frame)

theorem symbolsFrom_eq (frame : Frame) (i : Fin 15) :
    symbolsFrom frame i.val = symbol frame i :: symbolsFrom frame (i.val + 1) := by
  have bound : i.val < (List.finRange 15).length := by simp
  rw [symbolsFrom, List.drop_eq_getElem_cons bound, List.map_cons, symbolsFrom]
  simp

theorem selectedBytes_cons (sourceidMatch : Word) (id : Nat) (byte : Byte)
    (tagged : List (Nat × Byte)) :
    selectedBytes sourceidMatch ((id, byte) :: tagged) =
      (if sourceidMatch.getLsbD id then [byte] else []) ++
        selectedBytes sourceidMatch tagged := by
  rw [selectedBytes, List.filter_cons]
  split
  · rfl
  · rfl

end Walk

section Frames
variable {sourceidMatch : Word} {frame : Frame} {rest : List Byte} {later : List Symbol}

/-- The state after a pass, between two positions of a frame or after its last.
`next` and the two copies of the ID say the same, and they differ only right
after an ID byte, so never at an even position and never between two frames. -/
structure Between (sourceidMatch : Word) (frame : Frame) (rest : List Byte) (i : Nat)
    (formatter : Formatter) (sourceid : Nat) (next : Option Nat) : Prop where
  index : formatter.index.val = i % 15
  sameMatch : formatter.sourceidMatch = sourceidMatch
  inFrame : i < 15 → formatter.packet = frame
  effective : next.getD sourceid = formatter.sourceid
  settled : i % 2 = 0 → sourceid = formatter.sourceid
  lastSettled : i = 15 → next = none

theorem symbol_last (wellFormed : WellFormed frame) {i : Fin 15} {id : Nat}
    (stands : symbol frame i = .idAfterNext id) : i.val ≠ 14 := by
  intro last
  obtain rfl : i = 14 := Fin.ext last
  obtain ⟨_, isId, _, after⟩ := symbol_idAfterNext stands
  have now : auxSet frame 14 = false := wellFormed.lastNow isId
  rw [now] at after
  cases after

theorem Between.frameAt {i : Nat} {formatter : Formatter} {sourceid : Nat} {next : Option Nat}
    (between : Between sourceidMatch frame rest i formatter sourceid next)
    (started : 0 < i) (inside : i < 15) : formatter.frameAt rest = some (frame, rest) := by
  have index := between.index
  have notStart : formatter.index ≠ 0 := by
    intro zero
    rw [zero] at index
    simp only [Fin.coe_ofNat_eq_mod] at index
    omega
  rw [Formatter.frameAt, if_neg notStart, between.inFrame inside]

/-- One position: what the pass does and what the reference does agree, and what
is left is a state between two positions again. -/
theorem restBytes_position (wellFormed : WellFormed frame) {formatter : Formatter}
    {sourceid : Nat} {next : Option Nat} {input : List Byte}
    (goOn : ∀ formatter' sourceid' next',
      Between sourceidMatch frame rest (formatter.index.val + 1) formatter' sourceid' next' →
        formatter'.restBytes sourceid' rest =
          selectedBytes sourceidMatch (demultiplex sourceid' next' later))
    (sameMatch : formatter.sourceidMatch = sourceidMatch)
    (read : formatter.frameAt input = some (frame, rest))
    (effective : next.getD sourceid = formatter.sourceid)
    (settled : formatter.index.val % 2 = 0 → sourceid = formatter.sourceid) :
    formatter.restBytes sourceid input =
      selectedBytes sourceidMatch
        (demultiplex sourceid next (symbol frame formatter.index :: later)) := by
  have index := moveOn_index_val formatter frame
  cases stands : symbol frame formatter.index with
  | data byte =>
      rw [restBytes_data read stands, demultiplex, selectedBytes_cons, sameMatch, effective]
      congr 1
      refine goOn (formatter.moveOn frame) formatter.sourceid none ?_
      exact ⟨index, sameMatch, fun _ => rfl, rfl, fun _ => rfl, fun _ => rfl⟩
  | idNow id =>
      obtain ⟨even, isId, value, now⟩ := symbol_idNow stands
      rw [restBytes_id read even isId value, demultiplex]
      have taken : (if auxSet frame formatter.index = true ∨ formatter.sourceid = id
          then sourceid else id) = id := by
        rw [now, settled even]
        simp
      rw [taken]
      refine goOn _ id none ?_
      exact ⟨index, sameMatch, fun _ => rfl, rfl, fun _ => rfl, fun _ => rfl⟩
  | idAfterNext id =>
      obtain ⟨even, isId, value, after⟩ := symbol_idAfterNext stands
      have notLast := symbol_last wellFormed stands
      rw [restBytes_id read even isId value, demultiplex, if_pos (.inl after)]
      refine goOn _ sourceid (some id) ?_
      exact ⟨index, sameMatch, fun _ => rfl, rfl, fun odd => by omega, fun last => by omega⟩

/-- The rest of a frame, by induction on the number of positions still to come. -/
theorem restBytes_between (wellFormed : WellFormed frame)
    (after : ∀ formatter : Formatter, formatter.index = 0 →
      formatter.sourceidMatch = sourceidMatch →
        formatter.restBytes formatter.sourceid rest =
          selectedBytes sourceidMatch (demultiplex formatter.sourceid none later))
    (positions : Nat) {i : Nat} (started : 0 < i) (toCome : i + positions = 15)
    {formatter : Formatter} {sourceid : Nat} {next : Option Nat}
    (between : Between sourceidMatch frame rest i formatter sourceid next) :
    formatter.restBytes sourceid rest =
      selectedBytes sourceidMatch
        (demultiplex sourceid next (symbolsFrom frame i ++ later)) := by
  induction positions generalizing i formatter sourceid next with
  | zero =>
      obtain rfl : i = 15 := toCome
      have atStart : formatter.index = 0 := Fin.ext between.index
      have none := between.lastSettled rfl
      subst none
      have same : sourceid = formatter.sourceid := between.effective
      rw [same]
      exact after formatter atStart between.sameMatch
  | succ positions ih =>
      have inside : i < 15 := by omega
      have index : formatter.index.val = i := by rw [between.index]; omega
      have symbols := symbolsFrom_eq frame formatter.index
      rw [index] at symbols
      rw [symbols, List.cons_append]
      refine restBytes_position wellFormed ?_ between.sameMatch
        (between.frameAt started inside) between.effective ?_
      · intro formatter' sourceid' next' between'
        rw [index] at between'
        exact ih (by omega) (by omega) between'
      · rw [index]
        exact between.settled

theorem readFrame_ofFn (frame : Frame) (rest : List Byte) :
    readFrame (List.ofFn frame ++ rest) = some (frame, rest) := by
  have enough : 16 ≤ (List.ofFn frame ++ rest).length := by simp
  rw [readFrame, dif_pos enough]
  congr 2
  · funext i
    rw [List.get_eq_getElem, List.getElem_append_left (by simp), List.getElem_ofFn]

theorem restBytes_frames {frames : List Frame} {partFrame : List Byte}
    (wellFormed : ∀ frame ∈ frames, WellFormed frame) (short : partFrame.length < 16)
    (formatter : Formatter) (atStart : formatter.index = 0)
    (sameMatch : formatter.sourceidMatch = sourceidMatch) :
    formatter.restBytes formatter.sourceid (frames.flatMap List.ofFn ++ partFrame) =
      selectedBytes sourceidMatch
        (demultiplex formatter.sourceid none (frames.flatMap frameSymbols)) := by
  induction frames generalizing formatter with
  | nil =>
      have ended : readFrame partFrame = none := by
        rw [readFrame, dif_neg (by omega)]
      rw [restBytes_eq_resume, pass, frameAt, if_pos atStart]
      simp only [List.flatMap_nil, List.nil_append, ended]
      rfl
  | cons frame frames ih =>
      have first : WellFormed frame := wellFormed frame (by simp)
      have others : ∀ other ∈ frames, WellFormed other :=
        fun other member => wellFormed other (by simp [member])
      have read : formatter.frameAt
          (List.ofFn frame ++ (frames.flatMap List.ofFn ++ partFrame)) =
            some (frame, frames.flatMap List.ofFn ++ partFrame) := by
        rw [frameAt, if_pos atStart, readFrame_ofFn]
      have symbols : frameSymbols frame =
          symbol frame formatter.index :: symbolsFrom frame (formatter.index.val + 1) := by
        rw [← symbolsFrom_eq, atStart]
        rfl
      rw [List.flatMap_cons, List.append_assoc, List.flatMap_cons, symbols, List.cons_append]
      refine restBytes_position first ?_ sameMatch read rfl (fun _ => rfl)
      intro formatter' sourceid' next' between'
      rw [atStart] at between' ⊢
      exact restBytes_between first (ih others) 14 (by decide) (by decide) between'

end Frames

end Formatter

theorem formatterBytes_eq_reference (frames : List Frame) (partFrame : List Byte)
    (sourceidMatch : Word) (wellFormed : ∀ frame ∈ frames, WellFormed frame)
    (short : partFrame.length < 16) :
    formatterBytes (Formatter.start sourceidMatch) (frames.flatMap List.ofFn ++ partFrame) =
      selectedBytes sourceidMatch (demultiplex 0 none (frames.flatMap frameSymbols)) := by
  rw [Formatter.formatterBytes_eq]
  exact Formatter.restBytes_frames wellFormed short (Formatter.start sourceidMatch) rfl rfl

/-- Source 3 from position 0 on, source 5 from the byte after the data byte `0xbb`
on; only source 3 is selected. -/
def switchingFrame : Frame
  | 0 => 0x07 | 1 => 0xaa | 2 => 0x0b | 3 => 0xbb | 4 => 0xcc | 15 => 0x02 | _ => 0x00

theorem formatterBytes_eq_reference_switching :
    WellFormed switchingFrame ∧
      formatterBytes (Formatter.start 0x08) (List.ofFn switchingFrame ++ [0x07]) =
        [0xaa, 0xbb] := by
  have wellFormed : WellFormed switchingFrame := ⟨by decide, by decide⟩
  refine ⟨wellFormed, ?_⟩
  have reference := formatterBytes_eq_reference [switchingFrame] [0x07] 0x08
    (by simpa using wellFormed) (by decide)
  rw [List.flatMap_singleton] at reference
  rw [reference]
  decide

end ImxTest.Etm
