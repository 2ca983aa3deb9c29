/-
# What is received of a request

A request that was built is the tree of the method's name, the tree of the parameter object and the
terminator (`Request.build_ok`).  The stream ends itself, so the receiving side finds the payload
after it whatever the payload's bytes are (`ReceivedRequest.decode_trees`).  Together: the received
method is the one that was asked for, the received parameters are the meaning of the entries that
were written, and the received payload is the one attached (`Request.decode_frame`).

What the entries are is up to the operation that writes them; it is given by its `WritesAll`.
-/
import RemoteCall.Message.Request
import RemoteCall.Proofs.Value.Grammar
import RemoteCall.Proofs.Wire.Writing

namespace RemoteCall

open Wire Success

variable {method : String} {write : Write Unit} {entries? : Option (List (SizedText 2 × Tree))}
  {request : Request}

/-! ## 1. Building a request -/

/-- **A request is built exactly if its name and its parameters have trees that fit**, and then its
body is these trees. -/
theorem Request.build_ok (h : Writer.WritesAll write [.object] entries?) :
    Request.build method write = .ok request ↔
      ∃ (name : SizedText 4) (entries : List (SizedText 2 × Tree)), name.text = method ∧
        entries? = some entries ∧ (Tree.object entries).depth ≤ maxDepth ∧
        request = ⟨method, (Tree.string name).bytes ++ (Tree.object entries).bytes ++ [0x00],
          none⟩ := by
  have htop : ([] : List Scope).head? ≠ some .object := by simp
  have hname := (Writer.writes_string method).item htop
  have hstream := hname.append ((Writer.writes_object h).item htop)
  simp only [Option.map_map, Option.bind_map, Function.comp_def, List.singleton_append] at hstream
  unfold Request.build
  simp only [except_bind_ok, Writer.toBytes_eq_ok_iff hstream, Option.bind_eq_some_iff,
    Option.map_eq_some_iff, SizedText.of?_eq_some_iff]
  constructor
  · rintro ⟨_, ⟨_, ⟨name, hname, entries, hentries, rfl⟩, hdepth, rfl⟩, hrequest⟩
    cases hrequest
    refine ⟨name, entries, hname, hentries, hdepth _ (by simp), ?_⟩
    simp only [List.flatMap_cons, List.flatMap_nil, List.append_nil]
  · rintro ⟨name, entries, hname, hentries, hdepth, rfl⟩
    refine ⟨_, ⟨_, ⟨name, hname, entries, hentries, rfl⟩, ?_, rfl⟩, ?_⟩
    · exact List.forall_mem_cons.mpr ⟨Nat.zero_le _, List.forall_mem_singleton.mpr hdepth⟩
    · simp only [List.flatMap_cons, List.flatMap_nil, List.append_nil]
      rfl

/-! ## 2. Receiving a request -/

/-- **The trees of a request are received**, and whatever follows the terminator is the payload. -/
theorem ReceivedRequest.decode_trees (name : SizedText 4) {entries : List (SizedText 2 × Tree)}
    (hdepth : (Tree.object entries).depth ≤ maxDepth) (payload : Bytes) :
    ReceivedRequest.decode
        ((Tree.string name).bytes ++ ((Tree.object entries).bytes ++ 0x00 :: payload)) =
      .ok ⟨name.text, Fields.ofList (Tree.entryValues entries), payload⟩ := by
  have hstring : Reader.LooksFirst Reader.readString := (Reader.looksFirst_consume _ _).bind _
  have htop : ([] : List Scope).head? ≠ some .object := by simp
  have hflat : (Tree.string name).depth ≤ room [] := Nat.zero_le _
  have hname := Reader.recognizes_string.read_tree hstring htop hflat rfl
  have hparameters := Value.recognizes_read.read_tree Value.looksFirst_read htop hdepth rfl
  exact Reader.onBytes_ok.mpr ⟨_, bind_ok.mpr ⟨_, _, hname _ _, bind_ok.mpr
    ⟨_, _, hparameters _ _, bind_ok.mpr ⟨_, _, Reader.finish_terminator, rfl⟩⟩⟩⟩

/-- **A request that was built is received**: its method, what its entries mean, and its payload,
which is empty if there is none. -/
theorem Request.decode_frame (h : Writer.WritesAll write [.object] entries?)
    (hbuild : Request.build method write = .ok request) (payload : Option Bytes) :
    ∃ entries, entries? = some entries ∧ (Tree.object entries).depth ≤ maxDepth ∧
      ReceivedRequest.decode ({ request with payload := payload } : Request).frame =
        .ok ⟨method, Fields.ofList (Tree.entryValues entries), payload.getD []⟩ := by
  obtain ⟨name, entries, rfl, hentries, hdepth, rfl⟩ := (Request.build_ok h).mp hbuild
  have hreceived := ReceivedRequest.decode_trees name hdepth (payload.getD [])
  refine ⟨entries, hentries, hdepth, ?_⟩
  rw [Request.frame, List.append_assoc, List.append_assoc]
  exact hreceived

end RemoteCall
