/-
# Frames on a buffer in memory

A buffer in memory is a byte stream that fails only because it ends.  Whatever pieces its reads
deliver it in, such a source `Holds` one string of bytes; a sink that `Takes` enough bytes grows by
what is written to it.

`FrameCodec.framing_lossless` collects what holds of frames there.

* Messages written one after the other are read back, and then the end is met.
* Of a buffer that is cut anywhere, exactly the messages are read whose frames lie inside of the
  cut.  A message of which a part is missing is never handed out.
* A length above the limit is refused on both ends: the reader takes the four bytes of the length
  and nothing after them, the writer touches nothing.

The cut is found by one induction on the messages.  Everything else is said of one frame.
-/
import RemoteCall.Proofs.Bytes
import RemoteCall.Transport.Frame

namespace RemoteCall.Transport

/-! ## 1. Buffers -/

namespace Source

/-- The reads of the source meet these bytes, in pieces of any length, and then the end. -/
def Holds (source : Source) (bytes : Bytes) : Prop :=
  ∃ pieces : List Bytes, source = pieces.map .bytes ∧ pieces.flatten = bytes

variable {source : Source} {bytes front back : Bytes} {count : Nat}

/-- Nothing is read of nothing. -/
theorem readExact_zero (source : Source) : source.readExact 0 = (.ok [], source) := by
  cases source with
  | nil => rfl
  | cons chunk source => cases chunk <;> rfl

/-- **Bytes that are there are read**, and those after them are left. -/
theorem readExact_ok (h : source.Holds (front ++ back)) (hcount : front.length = count) :
    ∃ source', source.readExact count = (.ok front, source') ∧ source'.Holds back := by
  obtain ⟨pieces, rfl, hpieces⟩ := h
  induction pieces generalizing front count with
  | nil =>
    obtain ⟨rfl, rfl⟩ := List.append_eq_nil_iff.mp hpieces.symm
    subst hcount
    exact ⟨[], rfl, [], rfl, rfl⟩
  | cons piece pieces ih =>
    by_cases hzero : count = 0
    · subst hzero
      obtain rfl := List.eq_nil_of_length_eq_zero hcount
      exact ⟨_, readExact_zero _, piece :: pieces, rfl, hpieces⟩
    rw [List.flatten_cons] at hpieces
    rw [List.map_cons, readExact, if_neg hzero]
    by_cases hinside : count < piece.length
    · rw [if_pos hinside]
      have hfront : piece.take count = front := by
        have htake := congrArg (List.take count) hpieces
        rwa [List.take_append_of_le_length (Nat.le_of_lt hinside), List.take_left' hcount] at htake
      have hback : piece.drop count ++ pieces.flatten = back := by
        have hdrop := congrArg (List.drop count) hpieces
        rwa [List.drop_append_of_le_length (Nat.le_of_lt hinside), List.drop_left' hcount] at hdrop
      exact ⟨_, by rw [hfront]; rfl, piece.drop count :: pieces, rfl, hback⟩
    · rw [if_neg hinside]
      -- the whole piece is read, and the rest of `front` from the pieces after it
      have hlength : piece.length ≤ front.length := by omega
      obtain ⟨more, rfl⟩ : piece <+: front :=
        List.prefix_of_prefix_length_le ⟨_, hpieces⟩ (List.prefix_append _ _) hlength
      rw [List.append_assoc] at hpieces
      have hmore : more.length = count - piece.length := by
        rw [List.length_append] at hcount
        omega
      obtain ⟨source', hread, hholds⟩ := ih hmore (List.append_cancel_left hpieces)
      exact ⟨source', by rw [hread], hholds⟩

/-- **If too few bytes are there, they are lost** and the end is met. -/
theorem readExact_short (h : source.Holds bytes) (hshort : bytes.length < count) :
    ∃ text, source.readExact count = (.error ⟨.unexpectedEnd, text⟩, []) := by
  obtain ⟨pieces, rfl, rfl⟩ := h
  induction pieces generalizing count with
  | nil =>
    have hpos : count ≠ 0 := by
      simp at hshort
      omega
    exact ⟨_, if_neg hpos⟩
  | cons piece pieces ih =>
    rw [List.flatten_cons, List.length_append] at hshort
    have hrest : pieces.flatten.length < count - piece.length := by omega
    obtain ⟨text, hread⟩ := ih hrest
    refine ⟨text, ?_⟩
    rw [List.map_cons, readExact, if_neg (by omega), if_neg (by omega), hread]

end Source

namespace Sink

/-- The sink takes as many more bytes, and flushing it does not fail. -/
def Takes (sink : Sink) (count : Nat) : Prop :=
  sink.flushFault = none ∧ ∀ room, sink.room = some room → count ≤ room

/-- The sink after bytes have been written to it. -/
def grown (sink : Sink) (bytes : Bytes) : Sink :=
  { sink with accepted := sink.accepted ++ bytes, room := sink.room.map (· - bytes.length) }

variable {sink : Sink} {bytes more : Bytes} {count : Nat}

/-- **Bytes that a sink takes are all written.** -/
theorem writeAll_ok (h : sink.Takes bytes.length) :
    sink.writeAll bytes = (.ok (), sink.grown bytes) := by
  unfold writeAll grown
  cases hroom : sink.room with
  | none => simp
  | some room =>
    have htake : bytes.take room = bytes := List.take_of_length_le (h.2 room hroom)
    simp [htake]

theorem flush_ok (h : sink.Takes count) :
    sink.flush = (.ok (), { sink with flushes := sink.flushes + 1 }) := by
  unfold flush
  rw [h.1]

theorem Takes.mono {fewer : Nat} (h : sink.Takes count) (hfewer : fewer ≤ count) :
    sink.Takes fewer :=
  ⟨h.1, fun room hroom => Nat.le_trans hfewer (h.2 room hroom)⟩

/-- What a sink takes after some bytes it has taken. -/
theorem Takes.grown (h : sink.Takes (bytes.length + count)) : (sink.grown bytes).Takes count := by
  refine ⟨h.1, fun room hroom => ?_⟩
  obtain ⟨before, hbefore, rfl⟩ := Option.map_eq_some_iff.mp hroom
  have := h.2 before hbefore
  omega

end Sink

/-! ## 2. One frame -/

/-- The frame of a message. -/
def frame (body : Bytes) : Bytes := Bytes.bigEndian 4 body.length ++ body

@[simp] theorem length_frame (body : Bytes) : (frame body).length = 4 + body.length := by
  simp [frame]

namespace FrameCodec

variable {codec : FrameCodec} {body rest : Bytes} {source : Source} {sink : Sink}

/-- Messages of this size are written and read. -/
def Admits (codec : FrameCodec) (size : Nat) : Prop := size ≤ codec.limit ∧ size < UInt32.size

theorem sizeFault?_of_admits {size : Nat} (h : codec.Admits size) :
    codec.sizeFault? size = none := by
  obtain ⟨hlimit, hword⟩ := h
  exact if_neg (by omega)

theorem sizeFault?_of_not_admits {size : Nat} (h : ¬ codec.Admits size) :
    codec.sizeFault? size = some (.transport (.messageTooLarge size codec.limit)) := by
  unfold Admits at h
  exact if_pos (by omega)

/-- **A message is written as its frame**, with one flush. -/
theorem writeFrame_ok (hbody : codec.Admits body.length) (hsink : sink.Takes (frame body).length) :
    codec.writeFrame body sink =
      (.ok (), { sink.grown (frame body) with flushes := sink.flushes + 1 }) := by
  have hwhole : sink.Takes ((Bytes.bigEndian 4 body.length).length + body.length) := by
    simpa using hsink
  have hbytes : (sink.grown (Bytes.bigEndian 4 body.length)).Takes body.length := hwhole.grown
  have hflush : ((sink.grown (Bytes.bigEndian 4 body.length)).grown body).Takes 0 :=
    Sink.Takes.grown (by simpa using hbytes)
  have hgrown :
      (sink.grown (Bytes.bigEndian 4 body.length)).grown body = sink.grown (frame body) := by
    cases hroom : sink.room <;>
      simp [Sink.grown, frame, hroom, List.append_assoc, Nat.sub_sub]
  rw [hgrown] at hflush
  unfold writeFrame
  rw [sizeFault?_of_admits hbody, Sink.writeAll_ok (hwhole.mono (Nat.le_add_right _ _))]
  simp only [Sink.writeAll_ok hbytes, hgrown, Sink.flush_ok hflush]
  rfl

/-- **A message that is too long is refused** and nothing is written. -/
theorem writeFrame_too_long (h : ¬ codec.Admits body.length) :
    codec.writeFrame body sink =
      (.error (.transport (.messageTooLarge body.length codec.limit)), sink) := by
  unfold writeFrame
  rw [sizeFault?_of_not_admits h]

/-- **A whole frame is read as its message.** -/
theorem readFrame_ok (hbody : codec.Admits body.length) (h : source.Holds (frame body ++ rest)) :
    ∃ source', codec.readFrame source = (.ok body, source') ∧ source'.Holds rest := by
  rw [frame, List.append_assoc] at h
  obtain ⟨mid, hsize, hmid⟩ := Source.readExact_ok h (Bytes.length_bigEndian 4 _)
  obtain ⟨source', hread, hrest⟩ := Source.readExact_ok hmid rfl
  have hword : (Bytes.bigEndian 4 body.length).toNat = body.length :=
    Bytes.toNat_bigEndian hbody.2
  refine ⟨source', ?_, hrest⟩
  unfold readFrame
  simp only [hsize, hword, sizeFault?_of_admits hbody, hread]

/-- With too few bytes for a length nothing is read. -/
theorem readFrame_short {bytes : Bytes} (hshort : bytes.length < 4) (h : source.Holds bytes) :
    codec.readFrame source = (.error (.connection (.lost "reading length prefix")), []) := by
  obtain ⟨text, hread⟩ := Source.readExact_short h hshort
  unfold readFrame
  simp only [hread]
  rfl

/-- **Of a frame that is cut nothing is read**: the connection counts as lost. -/
theorem readFrame_cut (hbody : codec.Admits body.length) {cut : Nat}
    (hcut : cut < (frame body).length) (h : source.Holds ((frame body).take cut)) :
    ∃ activity, codec.readFrame source = (.error (.connection (.lost activity)), []) := by
  rw [length_frame] at hcut
  by_cases hlength : cut < 4
  · have hshort : ((frame body).take cut).length < 4 := by
      rw [List.length_take]
      omega
    exact ⟨_, readFrame_short hshort h⟩
  · -- the length is there, and a part of the message is missing
    have hsplit : (frame body).take cut =
        Bytes.bigEndian 4 body.length ++ body.take (cut - 4) := by
      rw [frame, List.take_append, Bytes.length_bigEndian, List.take_of_length_le]
      rw [Bytes.length_bigEndian]
      omega
    rw [hsplit] at h
    obtain ⟨mid, hsize, hmid⟩ := Source.readExact_ok h (Bytes.length_bigEndian 4 _)
    have hword : (Bytes.bigEndian 4 body.length).toNat = body.length :=
      Bytes.toNat_bigEndian hbody.2
    have hshort : (body.take (cut - 4)).length < body.length := by
      rw [List.length_take]
      omega
    obtain ⟨text, hread⟩ := Source.readExact_short hmid hshort
    refine ⟨"reading data", ?_⟩
    unfold readFrame
    simp only [hsize, hword, sizeFault?_of_admits hbody, hread]
    rfl

/-- **A length above the limit is refused before any byte of the message is taken**, whether these
bytes are there or not. -/
theorem readFrame_too_long {size : Bytes} (hsize : size.length = 4)
    (hlong : codec.limit < size.toNat) (h : source.Holds (size ++ rest)) :
    ∃ source', codec.readFrame source =
        (.error (.transport (.messageTooLarge size.toNat codec.limit)), source') ∧
      source'.Holds rest := by
  obtain ⟨source', hread, hrest⟩ := Source.readExact_ok h hsize
  have hfault : codec.sizeFault? size.toNat =
      some (.transport (.messageTooLarge size.toNat codec.limit)) :=
    sizeFault?_of_not_admits fun hadmits => absurd hadmits.1 (Nat.not_le_of_lt hlong)
  refine ⟨source', ?_, hrest⟩
  unfold readFrame
  simp only [hread, hfault]

/-! ## 3. One frame after the other -/

/-- Writes messages one after the other. -/
def writeFrames (codec : FrameCodec) : List Bytes → Sink → List (Except Error Unit) × Sink
  | [], sink => ([], sink)
  | body :: bodies, sink =>
    let (result, sink) := codec.writeFrame body sink
    let (results, sink) := codec.writeFrames bodies sink
    (result :: results, sink)

/-- Reads as often as told. -/
def readFrames (codec : FrameCodec) : (count : Nat) → Source → List (Except Error Bytes) × Source
  | 0, source => ([], source)
  | count + 1, source =>
    let (result, source) := codec.readFrame source
    let (results, source) := codec.readFrames count source
    (result :: results, source)

/-- The frames of messages, one after the other. -/
def frames (bodies : List Bytes) : Bytes := bodies.flatMap frame

theorem frames_cons (body : Bytes) (bodies : List Bytes) :
    frames (body :: bodies) = frame body ++ frames bodies := List.flatMap_cons

/-- These many reads all find the connection lost. -/
def Lost (count : Nat) (results : List (Except Error Bytes)) : Prop :=
  results.length = count ∧ ∀ result ∈ results, ∃ activity,
    result = .error (.connection (.lost activity))

variable {bodies : List Bytes}

/-- **Messages are written as their frames**, one after the other. -/
theorem writeFrames_ok (hbodies : ∀ body ∈ bodies, codec.Admits body.length)
    (hsink : sink.Takes (frames bodies).length) :
    codec.writeFrames bodies sink = (bodies.map fun _ => .ok (),
      { sink.grown (frames bodies) with flushes := sink.flushes + bodies.length }) := by
  induction bodies generalizing sink with
  | nil =>
    obtain ⟨room, fault, flushFault, accepted, flushes⟩ := sink
    cases room <;> simp [writeFrames, frames, Sink.grown]
  | cons body bodies ih =>
    rw [frames_cons, List.length_append] at hsink
    obtain ⟨hbody, hbodies⟩ := List.forall_mem_cons.mp hbodies
    have hrest : Sink.Takes { sink.grown (frame body) with flushes := sink.flushes + 1 }
        (frames bodies).length := hsink.grown
    rw [writeFrames, writeFrame_ok hbody (hsink.mono (Nat.le_add_right _ _))]
    simp only [ih hbodies hrest, frames_cons, List.map_cons, List.length_cons, Prod.mk.injEq,
      true_and]
    cases hroom : sink.room <;>
      simp [Sink.grown, hroom, List.append_assoc, Nat.sub_sub, Nat.add_assoc, Nat.add_comm 1]

/-- Once the connection is lost it stays lost. -/
theorem readFrames_lost {activity : String}
    (h : codec.readFrame source = (.error (.connection (.lost activity)), [])) (count : Nat) :
    Lost count (codec.readFrames count source).1 := by
  induction count generalizing source activity with
  | zero => exact ⟨rfl, fun _ hmem => absurd hmem List.not_mem_nil⟩
  | succ count ih =>
    have hend : codec.readFrame [] =
        (.error (.connection (.lost "reading length prefix")), []) := rfl
    obtain ⟨hlength, hlost⟩ := ih hend
    rw [readFrames, h]
    exact ⟨congrArg (· + 1) hlength, List.forall_mem_cons.mpr ⟨⟨activity, rfl⟩, hlost⟩⟩

/-- The messages at the front whose frames lie wholly inside of the first `cut` bytes, all of
them. -/
structure Inside (cut : Nat) (bodies inside : List Bytes) : Prop where
  front : inside <+: bodies
  fits : (frames inside).length ≤ cut
  all : ∀ others, others <+: bodies → (frames others).length ≤ cut → others <+: inside

/-- Behind the last frame nothing is cut off. -/
theorem Inside.eq_all {inside : List Bytes} (h : Inside (frames bodies).length bodies inside) :
    inside = bodies :=
  h.front.eq_of_length_le (h.all bodies (List.prefix_refl bodies) (Nat.le_refl _)).length_le

theorem inside_nil (cut : Nat) : Inside cut [] [] :=
  ⟨List.prefix_refl [], Nat.zero_le cut, fun _ hothers _ => hothers⟩

/-- A cut in the first frame. -/
theorem inside_first {cut : Nat} (hcut : cut < (frame body).length) :
    Inside cut (body :: bodies) [] := by
  refine ⟨List.nil_prefix, Nat.zero_le cut, fun others hothers hfits => ?_⟩
  cases others with
  | nil => exact List.prefix_refl []
  | cons other others =>
    obtain ⟨rfl, -⟩ := List.cons_prefix_cons.mp hothers
    rw [frames_cons, List.length_append] at hfits
    omega

/-- A cut behind the first frame. -/
theorem Inside.cons {cut : Nat} {inside : List Bytes} (hcut : (frame body).length ≤ cut)
    (h : Inside (cut - (frame body).length) bodies inside) :
    Inside cut (body :: bodies) (body :: inside) := by
  refine ⟨List.cons_prefix_cons.mpr ⟨rfl, h.front⟩, ?_, fun others hothers hfits => ?_⟩
  · have hrest := h.fits
    rw [frames_cons, List.length_append]
    omega
  · cases others with
    | nil => exact List.nil_prefix
    | cons other others =>
      obtain ⟨rfl, hmore⟩ := List.cons_prefix_cons.mp hothers
      rw [frames_cons, List.length_append] at hfits
      exact List.cons_prefix_cons.mpr ⟨rfl, h.all others hmore (by omega)⟩

/-- The reads give these messages, and then find the connection lost however often they are
tried. -/
def Reads (codec : FrameCodec) (source : Source) (bodies : List Bytes) : Prop :=
  ∀ more, ∃ lost, Lost more lost ∧
    (codec.readFrames (bodies.length + more) source).1 = bodies.map .ok ++ lost

theorem reads_nil {activity : String}
    (h : codec.readFrame source = (.error (.connection (.lost activity)), [])) :
    codec.Reads source [] := by
  intro more
  exact ⟨_, readFrames_lost h more, by simp⟩

theorem Reads.cons {source' : Source} (hread : codec.readFrame source = (.ok body, source'))
    (h : codec.Reads source' bodies) : codec.Reads source (body :: bodies) := by
  intro more
  obtain ⟨lost, hlost, hresults⟩ := h more
  refine ⟨lost, hlost, ?_⟩
  rw [List.length_cons, Nat.add_right_comm, readFrames, hread]
  simp only [hresults, List.map_cons, List.cons_append]

/-- **Of messages cut at any byte those are read that are wholly inside**, and then the connection
is lost.  The induction is on the messages: the cut falls into the first frame or behind it. -/
theorem reads_cut {cut : Nat} (hbodies : ∀ body ∈ bodies, codec.Admits body.length)
    (h : source.Holds ((frames bodies).take cut)) :
    ∃ inside, Inside cut bodies inside ∧ codec.Reads source inside := by
  induction bodies generalizing source cut with
  | nil =>
    exact ⟨[], inside_nil cut, reads_nil (readFrame_short (by simp [frames]) h)⟩
  | cons body bodies ih =>
    obtain ⟨hbody, hbodies⟩ := List.forall_mem_cons.mp hbodies
    rw [frames_cons] at h
    by_cases hcut : cut < (frame body).length
    · rw [List.take_append_of_le_length (Nat.le_of_lt hcut)] at h
      obtain ⟨activity, hread⟩ := readFrame_cut hbody hcut h
      exact ⟨[], inside_first hcut, reads_nil hread⟩
    · have hle := Nat.le_of_not_lt hcut
      rw [List.take_append, List.take_of_length_le hle] at h
      obtain ⟨source', hread, hrest⟩ := readFrame_ok hbody h
      obtain ⟨inside, hinside, hreads⟩ := ih hbodies hrest
      exact ⟨body :: inside, hinside.cons hle, hreads.cons hread⟩

/-- **Messages are read back**, and then the end is met. -/
theorem reads_frames (hbodies : ∀ body ∈ bodies, codec.Admits body.length)
    (h : source.Holds (frames bodies)) : codec.Reads source bodies := by
  rw [← List.take_length (l := frames bodies)] at h
  obtain ⟨inside, hinside, hreads⟩ := reads_cut hbodies h
  rwa [hinside.eq_all] at hreads

/-! ## 4. Frames on a buffer -/

/-- **Framing loses nothing and never yields a part of a message.** -/
theorem framing_lossless (codec : FrameCodec) (bodies : List Bytes)
    (hbodies : ∀ body ∈ bodies, codec.Admits body.length) :
    (∀ sink : Sink, sink.Takes (frames bodies).length →
      codec.writeFrames bodies sink = (bodies.map fun _ => .ok (),
        { sink.grown (frames bodies) with flushes := sink.flushes + bodies.length })) ∧
    (∀ source : Source, source.Holds (frames bodies) → codec.Reads source bodies) ∧
    (∀ (source : Source) (cut : Nat), source.Holds ((frames bodies).take cut) →
      ∃ inside, Inside cut bodies inside ∧ codec.Reads source inside) ∧
    (∀ (source : Source) (size rest : Bytes), size.length = 4 → codec.limit < size.toNat →
      source.Holds (size ++ rest) →
      ∃ source', codec.readFrame source =
          (.error (.transport (.messageTooLarge size.toNat codec.limit)), source') ∧
        source'.Holds rest) ∧
    ∀ (body : Bytes) (sink : Sink), ¬ codec.Admits body.length →
      codec.writeFrame body sink =
        (.error (.transport (.messageTooLarge body.length codec.limit)), sink) := by
  refine ⟨fun sink hsink => writeFrames_ok hbodies hsink, fun source h => reads_frames hbodies h,
    fun source cut h => reads_cut hbodies h, fun source size rest hsize hlong h => ?_,
    fun body sink hlong => writeFrame_too_long hlong⟩
  exact readFrame_too_long hsize hlong h

/-- Three messages, the second of them empty, cut inside of the third and delivered in pieces that
do not end where frames end. -/
theorem framing_lossless_three :
    (∀ body ∈ [[7], [], [1, 2, 3]], FrameCodec.Admits ⟨3, 5000⟩ (body : Bytes).length) ∧
    ∃ inside, Inside 15 [[7], [], [1, 2, 3]] inside ∧
      FrameCodec.Reads ⟨3, 5000⟩ [.bytes [0, 0], .bytes [0, 1, 7, 0, 0, 0, 0, 0, 0],
        .bytes [0, 3, 1, 2]] inside := by
  have hbodies : ∀ body ∈ [[7], [], [1, 2, 3]],
      FrameCodec.Admits ⟨3, 5000⟩ (body : Bytes).length := by
    simp [Admits, UInt32.size]
  obtain ⟨-, -, hcut, -, -⟩ := framing_lossless ⟨3, 5000⟩ [[7], [], [1, 2, 3]] hbodies
  exact ⟨hbodies, hcut _ 15 ⟨[[0, 0], [0, 1, 7, 0, 0, 0, 0, 0, 0], [0, 3, 1, 2]], rfl, rfl⟩⟩

end FrameCodec

end RemoteCall.Transport
