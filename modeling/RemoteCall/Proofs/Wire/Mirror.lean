/-
# Readers mirror writers

A stream need not be a tree of values when it is written: it is written by a sequence of primitives.
This module shows that any sequence of primitives that succeeds and can be finished is followed step
by step by the mirrored sequence on a reader.  Every step reads back what was written, the tokens
looked at ahead of the values are those of the values, and the depths agree all along.

The reader that has read what a writer has written is a function of the writer (`follower`): the
same scopes are open, and what the writer has announced the reader has looked at.  One step keeps
this (`mirror_step`), hence a run does (`mirror_run`).
-/
import RemoteCall.Proofs.Wire.Recognizer
import RemoteCall.Proofs.Wire.Writing

namespace RemoteCall.Wire

open Success

/-! ## 1. Primitives and their mirror images -/

/-- A primitive of a writer with its arguments. -/
inductive Op where
  | name (text : String) (token : Token)
  | number (n : Int64)
  | string (text : String)
  | boolean (b : Bool)
  | opens (scope : Scope)
  | closes (scope : Scope)
  deriving DecidableEq, Repr

/-- What a reading primitive answers.  Boundaries of scopes answer nothing. -/
inductive Answer where
  | name (text : String)
  | number (n : Int64)
  | string (text : String)
  | boolean (b : Bool)
  | boundary
  deriving DecidableEq, Repr

/-- What is seen in one step: the token looked at ahead of a value, if one looks, the answer, and
the depth after it. -/
structure Seen where
  token? : Option Token
  answer : Answer
  depth : Nat
  deriving DecidableEq, Repr

namespace Op

/-- The token with which the primitive begins a value, if it begins one. -/
def token? : Op → Option Token
  | number _ => some .number
  | string _ => some .string
  | boolean _ => some .boolean
  | opens .array => some .beginArray
  | opens .object => some .beginObject
  | name _ _ | closes _ => none

/-- What is written. -/
def answer : Op → Answer
  | name text _ => .name text
  | number n => .number n
  | string text => .string text
  | boolean b => .boolean b
  | opens _ | closes _ => .boundary

/-- The primitive on a writer. -/
def write : Op → Write Unit
  | name text token => Writer.writeName text token
  | number n => Writer.writeNumber n
  | string text => Writer.writeString text
  | boolean b => Writer.writeBool b
  | opens .array => Writer.beginArray
  | opens .object => Writer.beginObject
  | closes .array => Writer.endArray
  | closes .object => Writer.endObject

/-- The mirrored primitive on a reader. -/
def read : Op → Read Answer
  | name _ _ => do return .name (← Reader.nextName)
  | number _ => do return .number (← Reader.readNumber)
  | string _ => do return .string (← Reader.readString)
  | boolean _ => do return .boolean (← Reader.readBool)
  | opens .array => do
    Reader.beginArray
    return .boundary
  | opens .object => do
    Reader.beginObject
    return .boundary
  | closes .array => do
    Reader.endArray
    return .boundary
  | closes .object => do
    Reader.endObject
    return .boundary

/-- Writes, and records what is to be seen of it by a reader that looks ahead or does not. -/
def record (looks : Bool) (op : Op) : Write Seen := do
  op.write
  return ⟨if looks then op.token? else none, op.answer, (← get).depth⟩

/-- Reads, looking ahead before every value or never. -/
def mirror (looks : Bool) (op : Op) : Read Seen := do
  let token? ← if looks ∧ op.token?.isSome then some <$> Reader.peek else pure none
  let answer ← op.read
  return ⟨token?, answer, (← get).depth⟩

end Op

/-- The reader that has read what the writer has written, with `rest` left to read. -/
def follower (writer : Writer) (rest : Bytes) : Reader :=
  ⟨rest, writer.out.size, writer.scopes, writer.announced, none⟩

/-! ## 2. Looking ahead changes nothing -/

namespace Reader

variable {bytes : Bytes} {position : Nat} {scopes : List Scope} {peeked : Option Token}
  {token : Token}

theorem looksFirst_nextName : LooksFirst nextName := by
  intro bytes position scopes peeked token seen after name hpeek h
  unfold nextName at h ⊢
  rw [get_bind, scope?, (peek_again hpeek).2] at h
  rw [get_bind, scope?_mk]
  split at h
  · rename_i hobject
    rw [if_pos hobject]
    exact looksFirst_peek.bind _ hpeek h
  · exact (fail_ok.mp h).elim

theorem looksFirst_close (scope : Scope) : LooksFirst (close scope) := by
  intro bytes position scopes peeked token seen after u hpeek h
  unfold close at h ⊢
  rw [get_bind, scope?, (peek_again hpeek).2] at h
  rw [get_bind, scope?_mk]
  split at h
  · rename_i hscope
    rw [if_pos hscope]
    exact looksFirst_peek.bind _ hpeek h
  · exact (fail_ok.mp h).elim

/-- Where a value begins, its token is looked at: inside an object it has been announced. -/
theorem peek_lead (hvalue : token.startsValue = true) (hsettled : Writer.Settled scopes peeked)
    (hawaits : Writer.Awaits scopes peeked token) :
    peek ⟨Writer.lead scopes token ++ bytes, position, scopes, peeked, none⟩ =
      .ok token ⟨bytes, position + (Writer.lead scopes token).length, scopes, some token,
        none⟩ := by
  unfold Writer.lead
  split
  · rename_i hobject
    obtain rfl := hawaits hobject
    exact peek_of_peeked.mpr ⟨rfl, rfl⟩
  · rename_i hobject
    obtain rfl := hsettled hobject
    exact peek_ok.mpr (.inl ⟨none, bytes, hvalue, by simp [Names, hobject], rfl, rfl⟩)

end Reader

/-- Every primitive of a reader looks first. -/
theorem Op.looksFirst_read (op : Op) : Reader.LooksFirst op.read := by
  cases op
  case name text token => exact Reader.looksFirst_nextName.bind _
  case opens scope => cases scope <;> exact ((Reader.looksFirst_consume _ _).bind _).bind _
  case closes scope => cases scope <;> exact (Reader.looksFirst_close _).bind _
  all_goals exact ((Reader.looksFirst_consume _ _).bind _).bind _

/-! ## 3. One step -/

variable {op : Op} {looks : Bool} {out : Array UInt8} {scopes : List Scope}
  {announced : Option Token} {before after : Writer}

/-- The mirrored primitive reads what the primitive has written between two writers, and the token
looked at before is that of the value, if it begins one. -/
def Op.Follows (op : Op) (before after : Writer) : Prop :=
  ∃ chunk : Bytes, after.out = before.out ++ chunk ∧ ∀ rest, ∃ token seen,
    Reader.peek (follower before (chunk ++ rest)) = .ok token seen ∧
      (∀ own, op.token? = some own → own = token) ∧
      op.read seen = .ok op.answer (follower after rest)

theorem follower_append (chunk rest : Bytes) :
    follower ⟨out ++ chunk, scopes, announced⟩ rest =
      ⟨rest, out.size + chunk.length, scopes, announced, none⟩ := by
  unfold follower
  rw [← Array.length_toList, Array.toList_appendList, List.length_append, Array.length_toList]

/-- A primitive that begins a value: its tag is looked at, and the rest is read from there. -/
theorem Op.follows_value {token : Token} {payload : Bytes} {scopes' : List Scope}
    (htoken : op.token? = some token) (hvalue : token.startsValue = true)
    (hsettled : Writer.Settled scopes announced) (hawaits : Writer.Awaits scopes announced token)
    (hread : ∀ rest position, op.read ⟨payload ++ rest, position, scopes, some token, none⟩ =
      .ok op.answer ⟨rest, position + payload.length, scopes', none, none⟩) :
    op.Follows ⟨out, scopes, announced⟩
      ⟨out ++ (Writer.lead scopes token ++ payload), scopes', none⟩ := by
  refine ⟨_, rfl, fun rest => ?_⟩
  rw [List.append_assoc, follower_append, List.length_append, ← Nat.add_assoc, htoken]
  exact ⟨token, _, Reader.peek_lead hvalue hsettled hawaits,
    fun own hown => (Option.some.inj hown).symm, hread _ _⟩

/-- **What a primitive writes, its mirror image reads.** -/
theorem Op.follows_write (hsettled : Writer.Settled scopes announced) {u : Unit}
    (h : op.write ⟨out, scopes, announced⟩ = .ok u after) :
    Writer.Settled after.scopes after.announced ∧ op.Follows ⟨out, scopes, announced⟩ after := by
  cases op
  case name text token =>
    obtain ⟨hobject, rfl, hvalue, sized, rfl, rfl⟩ := Writer.writeName_ok.mp h
    obtain ⟨scopes, rfl⟩ : ∃ inner, scopes = .object :: inner := by
      cases scopes <;> cases hobject
      exact ⟨_, rfl⟩
    refine ⟨fun hno => absurd rfl hno, _, rfl, fun rest => ?_⟩
    rw [follower_append, List.length_cons]
    refine ⟨token, _, Reader.peek_ok.mpr (.inl ⟨some sized, rest, hvalue, ?_, rfl, rfl⟩), ?_,
      bind_ok.mpr ⟨_, _, Reader.nextName_ok.mpr ⟨rfl, rfl⟩, ?_⟩⟩
    · simp [Reader.Names]
    · simp [Op.token?]
    · rw [Element.nameBytes, Nat.add_assoc, Nat.add_comm 1]
      rfl
  case number n =>
    obtain ⟨hawaits, rfl⟩ := (Writer.writeNumber_ok hsettled).mp h
    refine ⟨Writer.settled_none, Op.follows_value rfl rfl hsettled hawaits fun rest position => ?_⟩
    refine bind_ok.mpr ⟨n, _, Reader.readNumber_ok.mpr ⟨rfl, rest, rfl, rfl⟩, ?_⟩
    rw [Bytes.length_ofInt64]
    rfl
  case string text =>
    obtain ⟨sized, rfl, hawaits, rfl⟩ := (Writer.writeString_ok hsettled).mp h
    refine ⟨Writer.settled_none, Op.follows_value rfl rfl hsettled hawaits fun rest position => ?_⟩
    exact bind_ok.mpr ⟨_, _, Reader.readString_ok.mpr ⟨rfl, sized, rest, rfl, rfl, rfl⟩, rfl⟩
  case boolean b =>
    obtain ⟨hawaits, rfl⟩ := (Writer.writeBool_ok hsettled).mp h
    refine ⟨Writer.settled_none, Op.follows_value rfl rfl hsettled hawaits fun rest position => ?_⟩
    exact bind_ok.mpr ⟨b, _, Reader.readBool_ok.mpr ⟨rfl, rest, rfl, rfl⟩, rfl⟩
  case opens scope =>
    cases scope
    case array =>
      obtain ⟨hawaits, hroom, rfl⟩ := (Writer.beginArray_ok hsettled).mp h
      rw [← List.append_nil (Writer.lead _ _)]
      refine ⟨Writer.settled_none,
        Op.follows_value rfl rfl hsettled hawaits fun rest position => ?_⟩
      exact bind_ok.mpr ⟨(), _, Reader.beginArray_ok.mpr ⟨rfl, hroom, rfl⟩, rfl⟩
    case object =>
      obtain ⟨hawaits, hroom, rfl⟩ := (Writer.beginObject_ok hsettled).mp h
      rw [← List.append_nil (Writer.lead _ _)]
      refine ⟨Writer.settled_none,
        Op.follows_value rfl rfl hsettled hawaits fun rest position => ?_⟩
      exact bind_ok.mpr ⟨(), _, Reader.beginObject_ok.mpr ⟨rfl, hroom, rfl⟩, rfl⟩
  case closes scope =>
    have hclose : Writer.close scope ⟨out, scopes, announced⟩ = .ok u after := by
      cases scope <;> exact h
    obtain ⟨hscope, rfl, rfl⟩ := Writer.close_ok.mp hclose
    obtain ⟨scopes, rfl⟩ : ∃ outer, scopes = scope :: outer := by
      cases scopes <;> cases hscope
      exact ⟨_, rfl⟩
    refine ⟨Writer.settled_none, _, rfl, fun rest => ?_⟩
    rw [follower_append]
    have hone : ([scope.closing.tag] ++ rest).length - rest.length = 1 := by simp
    refine ⟨scope.closing, _, Reader.peek_ok.mpr (.inr ⟨rest, rfl, .inl rfl, rfl⟩), ?_, ?_⟩
    · simp [Op.token?]
    · rw [hone]
      cases scope <;> exact bind_ok.mpr ⟨(), _, Reader.close_ok.mpr rfl, rfl⟩

/-- **One step.**  What is recorded of a primitive is what is seen of its mirror image, whether or
not one looks ahead. -/
theorem mirror_step {seen : Seen} (hsettled : Writer.Settled before.scopes before.announced)
    (h : op.record looks before = .ok seen after) :
    Writer.Settled after.scopes after.announced ∧
      ∃ chunk : Bytes, after.out = before.out ++ chunk ∧ ∀ rest,
        op.mirror looks (follower before (chunk ++ rest)) = .ok seen (follower after rest) := by
  obtain ⟨u, _, hwrite, hseen⟩ := bind_ok.mp h
  rw [get_bind] at hseen
  obtain ⟨rfl, rfl⟩ := pure_ok.mp hseen
  obtain ⟨hafter, chunk, hout, hfollows⟩ := Op.follows_write hsettled hwrite
  refine ⟨hafter, chunk, hout, fun rest => ?_⟩
  obtain ⟨token, looked, hpeek, hown, hread⟩ := hfollows rest
  unfold Op.mirror
  by_cases hlooks : looks = true ∧ op.token?.isSome = true
  · obtain ⟨rfl, hsome⟩ := hlooks
    obtain ⟨own, htoken⟩ := Option.isSome_iff_exists.mp hsome
    obtain rfl := hown own htoken
    rw [if_pos ⟨rfl, hsome⟩]
    refine bind_ok.mpr ⟨some own, looked, map_ok.mpr ⟨own, hpeek, rfl⟩,
      bind_ok.mpr ⟨op.answer, _, hread, ?_⟩⟩
    rw [if_pos rfl, htoken]
    rfl
  · rw [if_neg hlooks]
    have hread' := op.looksFirst_read hpeek hread
    refine bind_ok.mpr ⟨none, _, rfl, bind_ok.mpr ⟨op.answer, _, hread', ?_⟩⟩
    have hnone : (if looks = true then op.token? else none) = none := by
      split
      · rename_i hlooks'
        simpa using fun hsome => hlooks ⟨hlooks', hsome⟩
      · rfl
    rw [hnone]
    rfl

/-! ## 4. Runs -/

/-- **A run.**  The steps are followed one after the other. -/
theorem mirror_run : ∀ (ops : List Op) {before after : Writer} {seen : List Seen},
    Writer.Settled before.scopes before.announced →
    ops.mapM (Op.record looks) before = .ok seen after →
    Writer.Settled after.scopes after.announced ∧
      ∃ chunk : Bytes, after.out = before.out ++ chunk ∧ ∀ rest,
        ops.mapM (Op.mirror looks) (follower before (chunk ++ rest)) =
          .ok seen (follower after rest)
  | [], before, after, seen, hsettled, h => by
    rw [List.mapM_nil] at h
    obtain ⟨rfl, rfl⟩ := pure_ok.mp h
    exact ⟨hsettled, [], (Writer.append_nil _).symm, fun rest => by rw [List.mapM_nil]; rfl⟩
  | op :: ops, before, after, _, hsettled, h => by
    rw [List.mapM_cons] at h
    obtain ⟨first, mid, hfirst, h⟩ := bind_ok.mp h
    obtain ⟨others, _, hothers, h⟩ := bind_ok.mp h
    obtain ⟨rfl, rfl⟩ := pure_ok.mp h
    obtain ⟨hmid, chunk, hout, hstep⟩ := mirror_step hsettled hfirst
    obtain ⟨hafter, chunk', hout', hrun⟩ := mirror_run ops hmid hothers
    refine ⟨hafter, chunk ++ chunk', ?_, fun rest => ?_⟩
    · rw [hout', hout, Writer.append_append]
    · rw [List.mapM_cons, List.append_assoc]
      have hfirst := hstep (chunk' ++ rest)
      have hothers := hrun rest
      exact bind_ok.mpr ⟨first, _, hfirst, bind_ok.mpr ⟨others, _, hothers, rfl⟩⟩

/-- **A reader that mirrors a whole stream** sees what was recorded of it, whatever follows the
stream, and is left with what follows. -/
theorem mirror_stream {ops : List Op} {seen : List Seen} {bytes : Bytes}
    (h : (do
      let seen ← ops.mapM (Op.record looks)
      return (seen, ← Writer.finish)) Writer.new = .ok (seen, bytes) after) (suffix : Bytes) :
    Reader.onBytes (do
      let seen ← ops.mapM (Op.mirror looks)
      return (seen, ← Reader.finish)) (bytes ++ suffix) = .ok (seen, suffix) := by
  obtain ⟨_, last, hops, h⟩ := bind_ok.mp h
  obtain ⟨_, _, hfinish, h⟩ := bind_ok.mp h
  obtain ⟨heq, rfl⟩ := pure_ok.mp h
  obtain ⟨rfl, rfl⟩ := Prod.mk.inj heq
  obtain ⟨hlast, chunk, hout, hrun⟩ := mirror_run ops Writer.settled_none hops
  obtain ⟨out, scopes, announced⟩ := last
  obtain ⟨rfl, rfl, -⟩ := Writer.finish_ok.mp hfinish
  obtain rfl : announced = none := hlast (by simp)
  have hbytes : out.toList = chunk := by
    rw [show out = #[] ++ chunk from hout, Array.toList_appendList]
    rfl
  rw [hbytes, List.append_assoc]
  have hmirror := hrun ([0x00] ++ suffix)
  exact Reader.onBytes_ok.mpr
    ⟨_, bind_ok.mpr ⟨seen, _, hmirror, bind_ok.mpr ⟨suffix, _, Reader.finish_terminator, rfl⟩⟩⟩

/-- An object with an empty name that occurs twice, and an empty text after it. -/
theorem mirror_stream_empty_names :
    Reader.onBytes (do
      let seen ← [Op.opens .object, .name "" .number, .number 7, .name "" .beginArray,
        .opens .array, .closes .array, .closes .object, .string ""].mapM (Op.mirror true)
      return (seen, ← Reader.finish))
      ([6, 1, 0, 0, 0, 0, 0, 0, 0, 0, 0, 7, 4, 0, 0, 5, 7, 2, 0, 0, 0, 0, 0] ++ [1, 2]) =
    .ok ([⟨some .beginObject, .boundary, 1⟩, ⟨none, .name "", 1⟩, ⟨some .number, .number 7, 1⟩,
        ⟨none, .name "", 1⟩, ⟨some .beginArray, .boundary, 2⟩, ⟨none, .boundary, 1⟩,
        ⟨none, .boundary, 0⟩, ⟨some .string, .string "", 0⟩], [1, 2]) :=
  mirror_stream rfl [1, 2]

end RemoteCall.Wire
