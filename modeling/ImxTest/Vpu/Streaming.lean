import ImxTest.Vpu.EncoderNet
import ImxTest.Vpu.FillBounds
import ImxTest.Vpu.ReadFile

/-!
# From the encoder to the decoder's ring

A decoder that reads its bitstream from the network fills its ring with
`dec_fill_bsbuffer`, whose `vpu_read` is `udp_recv`; at the other end an encoder writes
with `vpu_write`, which is `udp_send`.  The two programs share nothing but datagrams.

The first part is about any source that carries one byte stream; then a file is put in
its place, and the receiver with the encoder at the other end.
-/

set_option autoImplicit false

namespace ImxTest.Vpu.Streaming

open ImxTest.Lib.ByteMem
open ImxTest.Lib.Run
open ImxTest.Vpu.FillBsbuffer
open ImxTest.Vpu.Udp
open ImxTest.Vpu.UdpStream
open ImxTest.Vpu.EncoderNet

/-! ## Sources that carry a stream -/

section Source
variable {Source : Type}

/-- What it takes for a source to carry a stream: reads hand out the bytes that are left, and
it answers `-EAGAIN` only as often as it has retries. -/
structure ByteStream (vpuRead : VpuRead Source) where
  Holds : Source → List Byte → Prop
  retries : Source → Nat
  read : ∀ source left (n : Nat), 0 < n → Holds source left →
    ∃ after, StreamCall n left (vpuRead.read source n).1.nread (vpuRead.read source n).1.bytes
        after ∧ Holds (vpuRead.read source n).2 after
  fewer : ∀ source left (n : Nat), 0 < n → Holds source left →
    retries (vpuRead.read source n).2 ≤ retries source
  again : ∀ source left (n : Nat), 0 < n → Holds source left →
    (vpuRead.read source n).1.nread = -eagain →
    retries (vpuRead.read source n).2 < retries source

variable {vpuRead : VpuRead Source}

/-- One read of a positive number of bytes, all in one. -/
theorem ByteStream.handed (stream : ByteStream vpuRead) {source : Source} {left : List Byte}
    {n : Nat} (positive : 0 < n) (holds : stream.Holds source left) :
    ∃ after, stream.Holds (vpuRead.read source n).2 after ∧
      left = (vpuRead.read source n).1.bytes ++ after ∧
      stream.retries (vpuRead.read source n).2 ≤ stream.retries source ∧
      (0 < (vpuRead.read source n).1.nread → after.length < left.length) ∧
      ((vpuRead.read source n).1.nread = 0 → left = []) ∧
      ((vpuRead.read source n).1.nread = -eagain →
        stream.retries (vpuRead.read source n).2 < stream.retries source) ∧
      ((vpuRead.read source n).1.nread < 0 → (vpuRead.read source n).1.nread = -eagain) := by
  obtain ⟨after, call, holdsAfter⟩ := stream.read source left n positive holds
  have splits := call.splits
  have lengths := congrArg List.length splits
  rw [List.length_append] at lengths
  refine ⟨after, holdsAfter, splits, stream.fewer source left n positive holds, ?_, ?_,
    stream.again source left n positive holds, ?_⟩
  · intro data
    rcases call.outcome with ⟨_, some, _⟩ | ⟨again, _⟩ | ⟨zero, _⟩
    · omega
    · rw [again, eagain] at data
      omega
    · omega
  · intro zero
    rcases call.outcome with ⟨count, some, _⟩ | ⟨again, _⟩ | ⟨_, _, none⟩
    · omega
    · rw [again, eagain] at zero
      omega
    · exact none
  · intro negative
    rcases call.outcome with ⟨count, some, _⟩ | ⟨again, _⟩ | ⟨zero, _⟩
    · omega
    · exact again
    · omega

end Source

/-! ## The reads of one fill -/

section Fill
variable {Source : Type} (vpuRead : VpuRead Source) (map : BsMap) (lib : LibRet)

/-- The library answers and there is room for a read. -/
def Asks (lib : LibRet) (ring : DecRing) (defaultsize : Int) : Prop :=
  lib = libOk ∧ fillSize ring.space defaultsize ≠ none

instance (lib : LibRet) (ring : DecRing) (defaultsize : Int) :
    Decidable (Asks lib ring defaultsize) :=
  inferInstanceAs (Decidable (_ ∧ _))

/-- The reads a fill makes: none, which is when it does not ask for anything, one, or a
second one behind a first that was complete. -/
inductive FillReads (asks : Prop) (source : Source) (fillEndBs : Bool) :
    FillOut Source → Prop where
  | idle (ret : Int) (ring : DecRing) (quiet : ¬ asks) :
      FillReads asks source fillEndBs ⟨ret, ring, source, false, fillEndBs, []⟩
  | single (ring : DecRing) (addr n : Nat) (positive : 0 < n) :
      FillReads asks source fillEndBs
        (afterRead map lib ring (vpuRead.read source n).2 fillEndBs
          (vpuRead.read source n).1.nread (vpuRead.read source n).1.nread
          [(addr, (vpuRead.read source n).1.bytes)])
  | double (ring : DecRing) (addr start n more : Nat) (total : Int) (positive : 0 < n)
      (positiveMore : 0 < more) (whole : (vpuRead.read source n).1.nread = n) :
      FillReads asks source fillEndBs
        (afterRead map lib ring (vpuRead.read (vpuRead.read source n).2 more).2 fillEndBs
          (vpuRead.read (vpuRead.read source n).2 more).1.nread total
          [(addr, (vpuRead.read source n).1.bytes),
            (start, (vpuRead.read (vpuRead.read source n).2 more).1.bytes)])

theorem decFillBsbuffer_reads (ring : DecRing) (source : Source) (fillEndBs : Bool)
    (defaultsize : Int) (below : ring.writePos < streamBufSize) :
    FillReads vpuRead map lib (Asks lib ring defaultsize) source fillEndBs
      (decFillBsbuffer vpuRead map lib defaultsize ring source fillEndBs) := by
  unfold decFillBsbuffer
  split
  · rename_i failed
    refine .idle (-1) ring ?_
    rintro ⟨rfl, _⟩
    cases failed
  cases chosen : fillSize ring.space defaultsize with
  | none => exact .idle 0 ring fun asks => absurd chosen asks.2
  | some size =>
      obtain ⟨positive, free⟩ := fillSize_bounds chosen
      have level : ring.space ≤ streamBufSize := Nat.sub_le _ _
      have passes := passes_end_iff map below size (by omega)
      simp only [targetAddr_eq map ring below]
      by_cases wraps : streamBufSize < ring.writePos + size
      · rw [if_pos (passes.mpr wraps)]
        simp only [fillWrap, room_eq map below]
        split
        · rename_i full
          simp only [fillRemaining, List.singleton_append]
          exact .double _ _ _ _ _ _ (by omega) (by omega) full.2
        · exact .single _ _ _ (by omega)
      · rw [if_neg (fun more => wraps (passes.mp more))]
        exact .single _ _ _ positive

variable {vpuRead map lib}

theorem readCase_cases (nread : Int) :
    (0 < nread ∧ readCase nread = .data) ∨ (nread = 0 ∧ readCase nread = .eof) ∨
      (nread < 0 ∧ ∃ ret, readCase nread = .leave ret) := by
  unfold readCase
  by_cases positive : 0 < nread
  · exact .inl ⟨positive, if_neg (by omega)⟩
  by_cases zero : nread = 0
  · exact .inr (.inl ⟨zero, by rw [if_pos (by omega), if_neg (by omega)]⟩)
  · refine .inr (.inr ⟨by omega, ?_⟩)
    rw [if_pos (by omega), if_pos (by omega)]
    split <;> exact ⟨_, rfl⟩

variable (map lib) in
/-- What the code behind a read does to everything but the ring. -/
theorem afterRead_fields (ring : DecRing) (source : Source) (fillEndBs : Bool)
    (nread total : Int) (stores : List (Nat × List Byte)) :
    let out := afterRead map lib ring source fillEndBs nread total stores
    out.source = source ∧ out.stores = stores ∧
      (out.fillEndBs = true → fillEndBs = true ∨ nread = 0) ∧
      (nread ≤ 0 → fillEndBs = true → out.fillEndBs = true) ∧
      (nread = 0 → lib = libOk → out.fillEndBs = true) := by
  rcases readCase_cases nread with ⟨positive, data⟩ | ⟨zero, ends⟩ | ⟨negative, ret, leaves⟩
  · simp only [afterRead, data, fillUpdate, if_true]
    split
    · exact ⟨rfl, rfl, .inl, fun _ ended => ended, by omega⟩
    · exact ⟨rfl, rfl, by simp, by omega, by omega⟩
  · simp only [afterRead, ends, fillUpdate, Bool.true_eq_false, if_false]
    split
    · rename_i running
      split
      · rename_i failed
        refine ⟨rfl, rfl, .inl, fun _ ended => ended, ?_⟩
        rintro _ rfl
        cases failed
      · exact ⟨rfl, rfl, fun _ => .inr zero, fun _ _ => rfl, fun _ _ => rfl⟩
    · rename_i ended
      have already : fillEndBs = true := by simpa using ended
      exact ⟨rfl, rfl, .inl, fun _ _ => already, fun _ _ => already⟩
  · simp only [afterRead, leaves]
    exact ⟨trivial, trivial, .inl, fun _ ended => ended, by omega⟩

/-- What a fill has done to the stream behind it. -/
structure Drawn (stream : ByteStream vpuRead) (asks : Prop) (source : Source)
    (fillEndBs : Bool) (out : FillOut Source) (left after : List Byte) : Prop where
  holds : stream.Holds out.source after
  splits : left = out.taken ++ after
  fewer : stream.retries out.source ≤ stream.retries source
  ended : out.fillEndBs = true → fillEndBs = true ∨ after = []
  stays : left = [] → fillEndBs = true → out.fillEndBs = true
  moves : asks → out.fillEndBs = true ∨
    after.length + stream.retries out.source < left.length + stream.retries source

theorem FillReads.drawn (stream : ByteStream vpuRead) {asks : Prop} {source : Source}
    {fillEndBs : Bool} {out : FillOut Source} {left : List Byte}
    (reads : FillReads vpuRead map lib asks source fillEndBs out)
    (answers : asks → lib = libOk) (holds : stream.Holds source left) :
    ∃ after, Drawn stream asks source fillEndBs out left after := by
  cases reads with
  | idle ret ring quiet =>
      exact ⟨left, holds, rfl, le_rfl, .inl, fun _ ended => ended, fun asked => absurd asked quiet⟩
  | single ring addr n positive =>
      obtain ⟨after, holdsAfter, splits, fewer, shorter, none, again, only⟩ :=
        stream.handed positive holds
      obtain ⟨source', stores, ended, stays, ends⟩ := afterRead_fields map lib
        ring (vpuRead.read source n).2 fillEndBs (vpuRead.read source n).1.nread
        (vpuRead.read source n).1.nread [(addr, (vpuRead.read source n).1.bytes)]
      refine ⟨after, by rwa [source'], ?_, by rwa [source'], ?_, ?_, ?_⟩
      · rw [FillOut.taken, stores, splits]
        simp
      · intro flagged
        refine (ended flagged).imp_right fun zero => ?_
        rw [none zero] at splits
        exact (List.append_eq_nil_iff.mp splits.symm).2
      · intro empty
        refine stays ?_
        by_contra data
        have := shorter (by omega)
        simp [empty] at this
      · intro asked
        rw [source']
        by_cases zero : (vpuRead.read source n).1.nread = 0
        · exact .inl (ends zero (answers asked))
        have lengths := congrArg List.length splits
        rw [List.length_append] at lengths
        by_cases data : 0 < (vpuRead.read source n).1.nread
        · have := shorter data
          exact .inr (by omega)
        · have := again (only (by omega))
          exact .inr (by omega)
  | double ring addr start n more total positive positiveMore whole =>
      obtain ⟨middle, holdsMiddle, splits, fewer, shorter, _⟩ := stream.handed positive holds
      have less := shorter (by omega)
      obtain ⟨after, holdsAfter, splitsMore, fewerMore, _, none, _⟩ :=
        stream.handed positiveMore holdsMiddle
      obtain ⟨source', stores, ended, -⟩ := afterRead_fields map lib
        ring (vpuRead.read (vpuRead.read source n).2 more).2 fillEndBs
        (vpuRead.read (vpuRead.read source n).2 more).1.nread total
        [(addr, (vpuRead.read source n).1.bytes),
          (start, (vpuRead.read (vpuRead.read source n).2 more).1.bytes)]
      have lengths := congrArg List.length splitsMore
      rw [List.length_append] at lengths
      refine ⟨after, by rwa [source'], ?_, ?_, ?_, ?_, ?_⟩
      · rw [FillOut.taken, stores, splits, splitsMore]
        simp
      · rw [source']
        omega
      · intro flagged
        refine (ended flagged).imp_right fun zero => ?_
        rw [none zero] at splitsMore
        exact (List.append_eq_nil_iff.mp splitsMore.symm).2
      · intro empty
        simp [empty] at less
      · intro asked
        rw [source']
        exact .inr (by omega)

end Fill

/-! ## Runs of fills -/

section Runs
variable {Source : Type} {vpuRead : VpuRead Source} {map : BsMap}

/-- The bytes the decoder has not taken are the last ones that were committed. -/
def Buffered (map : BsMap) (ring : DecRing) : Prop :=
  ring.unread map ring.mem <:+ ring.committed

theorem Buffered.update {ring : DecRing} (wf : ring.Wf) (n : Nat)
    (buffered : Buffered map ring) : Buffered map (ring.update map n) := by
  unfold DecRing.update
  split
  · exact buffered
  obtain ⟨decoded, whole⟩ := buffered
  refine ⟨decoded, ?_⟩
  simp only [DecRing.unread] at whole ⊢
  rw [readCyclic_split _ _ _ _ _ ring.level (by omega), ← List.append_assoc, whole, wf.pointers]
  simp

theorem Buffered.consume {ring : DecRing} (n : Nat) (fits : n ≤ ring.level)
    (buffered : Buffered map ring) : Buffered map (ring.consume n) := by
  obtain ⟨decoded, whole⟩ := buffered
  refine ⟨decoded ++ readCyclic ring.mem map.vaStart streamBufSize ring.readPos n, ?_⟩
  simp only [DecRing.unread, DecRing.consume] at whole ⊢
  rw [List.append_assoc, ← readCyclic_split _ _ _ _ _ _ fits, whole]

theorem Buffered.writes {ring next : DecRing} {stores : List (Nat × List Byte)} (wf : ring.Wf)
    (writes : WritesFree map ring next stores) (buffered : Buffered map ring) :
    Buffered map next := by
  have memory : next.mem = (ring.storeAll stores).mem := by
    rcases writes.commits with rfl | ⟨n, -, rfl⟩
    · rfl
    · exact update_mem map _ n
  have kept := writes.unread wf
  rw [memory] at kept
  have stored : Buffered map (ring.storeAll stores) := by
    obtain ⟨decoded, whole⟩ := buffered
    rw [← kept] at whole
    exact ⟨decoded, whole⟩
  have storedWf : (ring.storeAll stores).Wf :=
    ⟨wf.writePos_lt, wf.readPos_lt, wf.level_le, wf.pointers⟩
  rcases writes.commits with rfl | ⟨n, -, rfl⟩
  · exact stored
  · exact stored.update storedWf n

/-- The invariant of a run whose source had `whole` to give and has `left` of it now. -/
structure Flowing (stream : ByteStream vpuRead) (map : BsMap) (whole left : List Byte)
    (state : FillState Source) : Prop where
  wf : state.ring.Wf
  holds : stream.Holds state.source left
  splits : whole = state.taken ++ left
  ended : state.fillEndBs = true → left = []
  ordered : state.ring.committed.Sublist state.taken
  buffered : Buffered map state.ring

def ahead (stream : ByteStream vpuRead) (left : List Byte) (state : FillState Source) : Nat :=
  left.length + stream.retries state.source

def Asking (state : FillState Source) : FillEvent → Prop
  | .fill defaultsize lib => Asks lib state.ring defaultsize
  | .consume _ => False

instance (state : FillState Source) (event : FillEvent) : Decidable (Asking state event) := by
  cases event <;> unfold Asking <;> infer_instance

theorem Flowing.step (stream : ByteStream vpuRead) {whole left : List Byte}
    {state next : FillState Source} {event : FillEvent}
    (flowing : Flowing stream map whole left state)
    (step : fillStep vpuRead map state event = some next) :
    ∃ after, Flowing stream map whole after next ∧
      ahead stream after next ≤ ahead stream left state ∧
      (state.fillEndBs = true → next.fillEndBs = true) ∧
      (Asking state event → next.fillEndBs = true ∨
        ahead stream after next < ahead stream left state) := by
  obtain ⟨wf, holds, splits, ended, ordered, buffered⟩ := flowing
  obtain ⟨defaultsize, lib, out, rfl, result, accepted, rfl⟩ | ⟨n, rfl, fits, rfl⟩ :=
    fillStep_cases vpuRead map state next event step
  · have reads := decFillBsbuffer_reads vpuRead map lib state.ring state.source
      state.fillEndBs defaultsize wf.writePos_lt
    have writes := decFillBsbuffer_writesFree vpuRead map lib state.ring state.source
      state.fillEndBs defaultsize wf.writePos_lt
    rw [← result] at reads
    simp only [← result] at writes
    have spec := decFillBsbuffer_spec vpuRead map lib defaultsize state wf out result accepted
    obtain ⟨after, drawn⟩ := reads.drawn stream (fun asks => asks.1) holds
    have lengths := congrArg List.length drawn.splits
    have fewer := drawn.fewer
    rw [List.length_append] at lengths
    refine ⟨after, ⟨spec.wf, drawn.holds, ?_, ?_, ?_, buffered.writes wf writes⟩, ?_, ?_,
      drawn.moves⟩
    · rw [splits, drawn.splits, List.append_assoc]
    · intro flagged
      rcases drawn.ended flagged with already | empty
      · have none := drawn.splits
        rw [ended already] at none
        exact (List.append_eq_nil_iff.mp none.symm).2
      · exact empty
    · by_cases lost : SecondReadFails vpuRead state (.fill defaultsize lib)
      · rw [(spec.drops lost).1]
        exact ordered.trans (List.sublist_append_left _ _)
      · rw [spec.commits lost]
        exact ordered.append (List.Sublist.refl _)
    · unfold ahead
      simp only
      omega
    · exact fun already => drawn.stays (ended already) already
  · refine ⟨left, ⟨wf.consume n fits, holds, splits, ended, ?_, buffered.consume n fits⟩,
      le_rfl, id, False.elim⟩
    exact ordered

variable (vpuRead map) in
def asked : List FillEvent → FillState Source → Nat
  | [], _ => 0
  | event :: rest, state =>
      (if Asking state event then 1 else 0) +
        match fillStep vpuRead map state event with
        | none => 0
        | some next => asked rest next

theorem Flowing.run (stream : ByteStream vpuRead) {whole : List Byte} (fills : List FillEvent)
    {left : List Byte} {start final : FillState Source}
    (flowing : Flowing stream map whole left start)
    (run : runEvents (fillStep vpuRead map) fills start = some final) :
    ∃ after, Flowing stream map whole after final ∧
      (start.fillEndBs = true → final.fillEndBs = true) ∧
      (final.fillEndBs = true ∨
        asked vpuRead map fills start + ahead stream after final ≤ ahead stream left start) := by
  induction fills generalizing left start with
  | nil =>
      obtain rfl : start = final := by simpa [runEvents] using run
      exact ⟨left, flowing, id, .inr (by simp [asked])⟩
  | cons event rest ih =>
      obtain ⟨next, head, tail⟩ := (runEvents_cons _ _ _ _).mp run
      obtain ⟨middle, flowingNext, fewer, stays, moves⟩ := flowing.step stream head
      obtain ⟨after, flowingFinal, staysLater, count⟩ := ih flowingNext tail
      refine ⟨after, flowingFinal, fun already => staysLater (stays already), ?_⟩
      rw [or_iff_not_imp_left]
      intro running
      have later := count.resolve_left running
      simp only [asked, head]
      split
      · rename_i asking
        have less := (moves asking).resolve_left fun ended => running (staysLater ended)
        omega
      · omega

/-- What a decoder with an empty ring has received at the end of a run. -/
structure Received (vpuRead : VpuRead Source) (map : BsMap) (whole : List Byte) (retries : Nat)
    (fills : List FillEvent) (start final : FillState Source) : Prop where
  /-- In every run no byte is invented, repeated or moved. -/
  ordered : final.ring.committed.Sublist whole
  /-- What the decoder will read next is the end of what was committed. -/
  buffered : final.ring.unread map final.ring.mem <:+ final.ring.committed
  /-- Unless a second read fails, no byte is left out, and the end comes after the last one. -/
  complete : StepsMeet (fillStep vpuRead map)
      (fun state event => ¬ SecondReadFails vpuRead state event) fills start →
    final.ring.committed <+: whole ∧ (final.fillEndBs = true → final.ring.committed = whole)
  /-- Enough fills that ask for bytes come to the end. -/
  finishes : whole.length + retries < asked vpuRead map fills start → final.fillEndBs = true

/-- A ring nothing has been committed to, before the first read. -/
structure Fresh (start : FillState Source) : Prop where
  wf : start.ring.Wf
  empty : start.ring.level = 0
  committed : start.ring.committed = []
  taken : start.taken = []
  running : start.fillEndBs = false

theorem fills_receive (stream : ByteStream vpuRead) {whole : List Byte}
    {start final : FillState Source} (fresh : Fresh start)
    (holds : stream.Holds start.source whole) (fills : List FillEvent)
    (run : runEvents (fillStep vpuRead map) fills start = some final) :
    Received vpuRead map whole (stream.retries start.source) fills start final := by
  have flowing : Flowing stream map whole whole start := by
    refine ⟨fresh.wf, holds, by rw [fresh.taken, List.nil_append], ?_, ?_, ?_⟩
    · simp [fresh.running]
    · simp [fresh.committed]
    · simp [Buffered, DecRing.unread, fresh.empty, readCyclic]
  obtain ⟨after, done, -, count⟩ := flowing.run stream fills run
  refine ⟨?_, done.buffered, ?_, ?_⟩
  · rw [done.splits]
    exact done.ordered.trans (List.sublist_append_left _ _)
  · intro meets
    have kept : ∀ state event next, (state.ring.Wf ∧ Lossless state) →
        ¬ SecondReadFails vpuRead state event → fillStep vpuRead map state event = some next →
        next.ring.Wf ∧ Lossless next := by
      intro state event next holds kept step
      exact ⟨fillStep_wf vpuRead map state event next holds.1 step,
        (fillStep_lossless_iff vpuRead map state event next holds.1 holds.2 step).mpr kept⟩
    have lossless := runEvents_of_stepsMeet kept fills start final
      ⟨fresh.wf, by rw [Lossless, fresh.committed, fresh.taken]⟩ meets run
    have same : final.ring.committed = final.taken := lossless.2
    rw [same]
    refine ⟨⟨after, done.splits.symm⟩, ?_⟩
    intro flagged
    have splits := done.splits
    rwa [done.ended flagged, List.append_nil, eq_comm] at splits
  · intro enough
    rcases count with ended | bounded
    · exact ended
    · simp only [ahead] at bounded
      omega

end Runs

/-! ## A file as a source -/

/-- `vpu_read(cmd, buf, n)` when `src_scheme` is `PATH_FILE`. -/
def fileRead : VpuRead ReadFile.File where
  read file n :=
    let got := ReadFile.freadn file n
    (⟨got.1.length, got.1⟩, got.2)
  contract := by
    intro file n
    obtain ⟨got, -⟩ := ReadFile.freadn_spec file n
    refine ⟨?_, fun _ => rfl, ?_⟩
    · simp only [got]
      exact List.length_take_le _ _
    · intro again
      simp only [eagain] at again
      omega

/-- However few bytes each `read` gives. -/
theorem fileRead_handed (file : ReadFile.File) (left : List Byte) (n : Nat) (positive : 0 < n)
    (holds : file.bytes = left) :
    ∃ after, StreamCall n left (fileRead.read file n).1.nread (fileRead.read file n).1.bytes
        after ∧ (fileRead.read file n).2.bytes = after := by
  obtain ⟨got, rest⟩ := ReadFile.freadn_spec file n
  refine ⟨left.drop n, ?_, by simp only [fileRead, rest, holds]⟩
  simp only [fileRead, got, holds]
  cases left with
  | nil => simpa using StreamCall.ended
  | cons byte bytes =>
      have call := @StreamCall.data n ((byte :: bytes).take n) ((byte :: bytes).drop n)
        (by simp; omega) (by simp)
      rwa [List.take_append_drop] at call

theorem fileRead_quiet (file : ReadFile.File) (n : Nat) :
    (fileRead.read file n).1.nread ≠ -eagain := by
  intro again
  simp only [fileRead, eagain] at again
  omega

/-- A file is read without retries. -/
def fileStream : ByteStream fileRead where
  Holds file left := file.bytes = left
  retries _ := 0
  read file left n positive holds := fileRead_handed file left n positive holds
  fewer _ _ _ _ _ := Nat.le_refl 0
  again file _ n _ _ again := absurd again (fileRead_quiet file n)

/-- A decoder fills its ring from a file with the bytes of the file. -/
theorem file_fills_decoder (map : BsMap) (fills : List FillEvent)
    (start final : FillState ReadFile.File) (fresh : Fresh start)
    (run : runEvents (fillStep fileRead map) fills start = some final) :
    Received fileRead map start.source.bytes 0 fills start final :=
  fills_receive fileStream fresh rfl fills run

/-- Three bytes that `read` gives one at a time, in fills of two; the end of the file comes
with the third fill. -/
def shortFile : FillState ReadFile.File := ⟨emptyRing, ⟨[1, 2, 3], [0, 0, 0]⟩, false, []⟩

def shortFills : List FillEvent :=
  [.fill 2 libOk, .consume 1, .fill 2 libOk, .fill 2 libOk]

theorem file_fills_decoder_three :
    ∃ final, runEvents (fillStep fileRead lowMap) shortFills shortFile = some final ∧
      Received fileRead lowMap [1, 2, 3] 0 shortFills shortFile final :=
  ⟨_, rfl, file_fills_decoder lowMap shortFills shortFile _ ⟨emptyRing_wf, rfl, rfl, rfl, rfl⟩ rfl⟩

/-! ## The network as a source -/

/-- What `vpu_read` draws on when `src_scheme` is `PATH_NET`: the fields of `udp_recv`, what
the socket will do, and the value of `complete` at each read to come. -/
structure NetSource where
  state : RecvState
  events : List NetEvent
  completes : Nat → Bool

/-- `vpu_read(cmd, buf, n)`.  A call that waits for ever or faults, or whose answer is none of
those its callers know, counts as failed; a stream that `Holding` describes has no such call. -/
def netRead : VpuRead NetSource where
  read source n :=
    match udpRecv (source.completes 0) n source.events source.state with
    | .returned ret obs next rest =>
        if ReadContract n ⟨ret, obsBytes obs⟩ then
          (⟨ret, obsBytes obs⟩, ⟨next, rest, fun turn => source.completes (turn + 1)⟩)
        else (⟨-1, []⟩, source)
    | .waiting => (⟨-1, []⟩, source)
    | .fault => (⟨-1, []⟩, source)
  contract := by
    intro source n
    have failed : ReadContract n ⟨-1, []⟩ := by simp [ReadContract]
    cases udpRecv (source.completes 0) n source.events source.state with
    | returned ret obs next rest =>
        by_cases kept : ReadContract n ⟨ret, obsBytes obs⟩
        · simpa only [if_pos kept] using kept
        · simpa only [if_neg kept] using failed
    | waiting => exact failed
    | fault => exact failed

theorem StreamCall.contract {n : Nat} {left bytes after : List Byte} {ret : Int}
    (call : StreamCall n left ret bytes after) : ReadContract n ⟨ret, bytes⟩ := by
  rcases call.outcome with ⟨count, _, fits⟩ | ⟨again, none⟩ | ⟨zero, none, _⟩
  · refine ⟨by simp only; omega, fun _ => count.symm, ?_⟩
    simp only [eagain]
    omega
  · simp [ReadContract, again, none, eagain]
  · simp [ReadContract, zero, none, eagain]

/-- On a stream a read is the call of `udp_recv`. -/
theorem netRead_spec (source : NetSource) (left : List Byte) (n : Nat) (positive : 0 < n)
    (holds : Holding source.state source.events left) :
    ∃ ret obs next rest after,
      netRead.read source n =
        (⟨ret, obsBytes obs⟩, ⟨next, rest, fun turn => source.completes (turn + 1)⟩) ∧
      CallSpec n source.events left ret obs next rest after := by
  obtain ⟨ret, obs, next, rest, after, returned, spec⟩ :=
    udpRecv_refines (source.completes 0) n source.events source.state left (by omega) holds
  refine ⟨ret, obs, next, rest, after, ?_, spec⟩
  simp only [netRead, returned, if_pos (StreamCall.contract spec.read)]

def netStream : ByteStream netRead where
  Holds source left := Holding source.state source.events left
  retries source := timeouts source.events
  read := by
    intro source left n positive holds
    obtain ⟨ret, obs, next, rest, after, answer, spec⟩ :=
      netRead_spec source left n positive holds
    rw [answer]
    exact ⟨after, spec.read, spec.holds⟩
  fewer := by
    intro source left n positive holds
    obtain ⟨ret, obs, next, rest, after, answer, spec⟩ :=
      netRead_spec source left n positive holds
    rw [answer]
    exact spec.fewer
  again := by
    intro source left n positive holds
    obtain ⟨ret, obs, next, rest, after, answer, spec⟩ :=
      netRead_spec source left n positive holds
    rw [answer]
    exact spec.again

/-! ## The encoder at the other end -/

/-- A receiver before its first read, to which the network brings the datagrams in order, with
time-outs anywhere. -/
structure Listens (source : NetSource) (datagrams : List (List Byte)) : Prop where
  initial : source.state = RecvState.initial source.state.nbuf source.state.noffset
  size : source.state.nbuf.length = defaultPktSize
  quiet : Quiet source.events
  arrive : arrivals source.events = datagrams

/-- An encoding loop that is left and drops no frame puts all it produced on the network. -/
theorem encoderStart_sends {enc : Encode} {run : EncRun} {stale : Nat → Int} {iframe : Int}
    (staleInt : ∀ k, InInt (stale k)) (iframeInt : InInt iframe)
    (fits : ∀ buf ∈ writes (encoderStart enc run), buf.length + hdrLen ≤ defaultPktSize)
    (count : (writes (encoderStart enc run)).length ≤ 2 ^ 31) (positive : AllPositive enc run)
    (leaves : .loopFinished ∈ encoderStart enc run) :
    ∃ datagrams, sendAll stale ⟨0, iframe⟩ (writes (encoderStart enc run)) = some datagrams ∧
      ∀ source : NetSource, Listens source datagrams →
        Holding source.state source.events (produced (encoderStart enc run)) := by
  obtain ⟨pieces, dropped, closed, shape, dropping, written⟩ := encoderStart_shape enc run
  obtain ⟨nonempty, kept⟩ := written.mp positive
  obtain rfl : closed = true := by
    cases closed with
    | true => rfl
    | false =>
        have inside : EncEvent.loopFinished ∈ traceOf pieces dropped := by
          simpa [shape, endOfStream] using leaves
        rcases List.mem_append.mp inside with early | late
        · exact absurd early (loopFinished_notMem_emit pieces)
        · simp at late
  rw [shape, writes_trace] at fits count ⊢
  have piecesFit : ∀ piece ∈ pieces, piece.length + hdrLen ≤ defaultPktSize :=
    fun piece member => fits piece (by simp [member])
  refine ⟨_, sendAll_wire stale iframe 0 pieces true nonempty piecesFit, ?_⟩
  intro source listens
  have whole : produced (traceOf pieces dropped ++ endOfStream true) =
      payloads (sentOf iframe pieces) := by
    rw [produced_trace, payloads_sentOf]
    cases dropped with
    | none => simp
    | some frame => simp [kept frame rfl]
  rw [listens.initial, whole]
  refine initial_holding (sentOf iframe pieces) ⟨-1, stale 0, 0⟩ source.events _ _
    (sentOf_ok iframe pieces iframeInt nonempty piecesFit) ?_
    ⟨endHdr_fits _ (staleInt 0), rfl⟩ listens.quiet ?_ listens.size
  · simp only [List.length_append] at count
    simp only [sentOf, List.length_map]
    omega
  · simpa using listens.arrive

def shortEncode : Encode := { skipEncode with count := 2 }

def shortRun : EncRun := { skipRun with turns := [skipTurn [1, 2], skipTurn [3]] }

theorem shortRun_trace : encoderStart shortEncode shortRun =
    [.produced [1, 2], .vpuWrite [1, 2], .produced [3], .vpuWrite [3], .loopFinished,
      .vpuWrite []] := by
  decide

theorem shortRun_positive : AllPositive shortEncode shortRun := by
  simp [AllPositive, shortEncode, shortRun, skipEncode, skipRun, skipTurn, turnsPositive,
    turnPositive, headersPositive, Encode.headers, Encode.headerPerFrame]

end ImxTest.Vpu.Streaming
