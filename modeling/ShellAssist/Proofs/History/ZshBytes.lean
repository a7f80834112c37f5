import ShellAssist.History.ShellLog
import Mathlib.Data.Finset.Insert
import Mathlib.Data.List.Basic

namespace ShellAssist.History

/-!
# Encoded bytes

Zsh writes a byte that would disturb it as two, the mark and the byte with one bit flipped. Which bytes
these are does not matter, as long as the mark is one of them: a byte behind a mark is always the
second of two, whatever it looks like, so that bytes can be cut in only one way.

* `Zsh.metafy` — bytes as zsh writes them;
* `Zsh.Cut`, `Zsh.Cut.bytes_eq_iff` — the one way to cut bytes into those that one byte is read from;
* `Zsh.unmetafyAll_eq` — what is read is one byte for each piece of the cut;
* `Zsh.unmetafy_decodes` — encoded bytes are read back, and any bytes as they are cut;
* `Dialect.parseBytes_metafy` — an encoded file is read as the bytes that it was made from.
-/

namespace Zsh

/-- Bytes as zsh writes them: those of the set stand behind a mark with one bit flipped. -/
def metafy (disturbing : Finset UInt8) (bytes : List UInt8) : List UInt8 :=
  bytes.flatMap fun b => if b ∈ disturbing then [metaMark, b ^^^ 0x20] else [b]

/-! ### Pieces -/

/-- What one byte is read from. -/
inductive Piece where
  /-- A byte that stands for itself. -/
  | plain (b : UInt8) (h : b ≠ metaMark)
  /-- The mark and a byte behind it. -/
  | marked (next : UInt8)

namespace Piece

/-- The bytes of a piece. -/
def bytes : Piece → List UInt8
  | plain b _ => [b]
  | marked next => [metaMark, next]

/-- The byte that a piece stands for. -/
def value : Piece → UInt8
  | plain b _ => b
  | marked next => next ^^^ 0x20

end Piece

/-- Bytes cut into pieces. -/
structure Cut where
  pieces : List Piece
  /-- Whether a mark is left at the end, with no byte behind it. -/
  unfinished : Bool

namespace Cut

/-- The bytes that were cut. -/
def bytes (c : Cut) : List UInt8 :=
  c.pieces.flatMap Piece.bytes ++ if c.unfinished then [metaMark] else []

/-- The cut with one more piece in front. -/
def push (p : Piece) (c : Cut) : Cut :=
  { c with pieces := p :: c.pieces }

theorem bytes_push (p : Piece) (c : Cut) : (c.push p).bytes = p.bytes ++ c.bytes := by
  rw [bytes, push, List.flatMap_cons, List.append_assoc, bytes]

/-- The cut of bytes from the front on. -/
def ofBytes : List UInt8 → Cut
  | [] => ⟨[], false⟩
  | b :: rest =>
    if h : b = metaMark then
      match rest with
      | [] => ⟨[], true⟩
      | next :: more => (ofBytes more).push (.marked next)
    else (ofBytes rest).push (.plain b h)

theorem ofBytes_append (p : Piece) (rest : List UInt8) :
    ofBytes (p.bytes ++ rest) = (ofBytes rest).push p := by
  cases p with
  | plain b h =>
    show ofBytes (b :: rest) = _
    rw [ofBytes.eq_def]
    exact dif_neg h
  | marked next => rfl

theorem bytes_ofBytes (bytes : List UInt8) : (ofBytes bytes).bytes = bytes := by
  fun_induction ofBytes bytes with
  | case1 => rfl
  | case2 => rfl
  | case3 next more ih => rw [bytes_push, ih, Piece.bytes, List.cons_append, List.singleton_append]
  | case4 b rest h ih => rw [bytes_push, ih, Piece.bytes, List.singleton_append]

theorem ofBytes_bytes (c : Cut) : ofBytes c.bytes = c := by
  obtain ⟨pieces, unfinished⟩ := c
  -- A piece is told by its own bytes, so it is cut off whatever the bytes behind it look like.
  induction pieces with
  | nil => cases unfinished <;> rfl
  | cons p pieces ih =>
    have hpush : (⟨p :: pieces, unfinished⟩ : Cut) = push p ⟨pieces, unfinished⟩ := rfl
    rw [hpush, bytes_push, ofBytes_append, ih]

/-- **There is only one way to cut bytes.** -/
theorem bytes_eq_iff {c : Cut} {bytes : List UInt8} : c.bytes = bytes ↔ c = ofBytes bytes :=
  ⟨fun h => h ▸ (ofBytes_bytes c).symm, fun h => h ▸ bytes_ofBytes bytes⟩

end Cut

/-! ### Reading -/

/-- One byte is read from each piece, and none from a mark that is left at the end. -/
theorem unmetafyAll_eq (bytes : List UInt8) :
    unmetafyAll bytes = (Cut.ofBytes bytes).pieces.map Piece.value := by
  -- Reading takes the bytes of one piece at each step.
  fun_induction unmetafyAll bytes with
  | case1 => rfl
  | case2 => rfl
  | case3 next more ih =>
    show _ = (Cut.ofBytes ((Piece.marked next).bytes ++ more)).pieces.map Piece.value
    rw [Cut.ofBytes_append, ih]
    rfl
  | case4 b rest h ih =>
    show _ = (Cut.ofBytes ((Piece.plain b h).bytes ++ rest)).pieces.map Piece.value
    rw [Cut.ofBytes_append, ih]
    rfl

/-- Bytes without a mark stand for themselves. -/
theorem unmetafyAll_of_not_mem {bytes : List UInt8} (h : metaMark ∉ bytes) :
    unmetafyAll bytes = bytes := by
  induction bytes with
  | nil => rfl
  | cons b rest ih =>
    obtain ⟨hb, hrest⟩ := not_or.mp (mt List.mem_cons.mpr h)
    rw [unmetafyAll.eq_def]
    simp only [if_neg (Ne.symm hb), ih hrest]

theorem unmetafy_eq (bytes : List UInt8) : unmetafy bytes = unmetafyAll bytes := by
  rw [unmetafy]
  split
  · rfl
  · rename_i h
    exact (unmetafyAll_of_not_mem (mt List.contains_iff_mem.mpr h)).symm

/-- Flipping the bit again gives the byte back. -/
theorem flip_flip (b : UInt8) : (b ^^^ 0x20) ^^^ 0x20 = b := by
  rw [UInt8.xor_assoc, UInt8.xor_self, UInt8.xor_zero]

/-- The pieces that a byte is written as. -/
def pieceOf {disturbing : Finset UInt8} (h : metaMark ∈ disturbing) (b : UInt8) : Piece :=
  if hb : b ∈ disturbing then .marked (b ^^^ 0x20) else .plain b fun heq => hb (heq ▸ h)

theorem metafy_eq {disturbing : Finset UInt8} (h : metaMark ∈ disturbing) (bytes : List UInt8) :
    metafy disturbing bytes = Cut.bytes ⟨bytes.map (pieceOf h), false⟩ := by
  rw [metafy, Cut.bytes, List.flatMap_map]
  simp only [Bool.false_eq_true, if_false, List.append_nil]
  refine List.flatMap_congr fun b _ => ?_
  by_cases hb : b ∈ disturbing <;> simp [pieceOf, hb, Piece.bytes]

/-- **What zsh encodes is read back.** -/
theorem unmetafy_metafy {disturbing : Finset UInt8} (h : metaMark ∈ disturbing) (bytes : List UInt8) :
    unmetafy (metafy disturbing bytes) = bytes := by
  have hvalue (b : UInt8) : (pieceOf h b).value = b := by
    by_cases hb : b ∈ disturbing
    · rw [pieceOf, dif_pos hb, Piece.value, flip_flip]
    · rw [pieceOf, dif_neg hb, Piece.value]
  rw [unmetafy_eq, metafy_eq h, unmetafyAll_eq, Cut.ofBytes_bytes, List.map_map]
  exact List.map_id'' hvalue bytes

/-- **Encoding is undone, and any bytes are read as they are cut.** Encoded bytes are read back, whichever
bytes are disturbing, as long as the mark is one. Any bytes at all can be cut in one way only into bytes
that are no mark, pairs of a mark and a byte, and at most a mark that is left at the end; one byte is read
from each, and none from what is left. Bytes without a mark stand for themselves, whether they are looked
at one by one or not at all. -/
theorem unmetafy_decodes :
    (∀ disturbing : Finset UInt8, metaMark ∈ disturbing →
      ∀ bytes, unmetafy (metafy disturbing bytes) = bytes) ∧
    (∀ bytes, ∃ c : Cut, (∀ c' : Cut, c'.bytes = bytes ↔ c' = c) ∧
      unmetafy bytes = c.pieces.map Piece.value) ∧
    ∀ bytes, metaMark ∉ bytes → unmetafyAll bytes = bytes ∧ unmetafy bytes = bytes := by
  refine ⟨fun disturbing h => unmetafy_metafy h, fun bytes => ?_, fun bytes h => ?_⟩
  · refine ⟨Cut.ofBytes bytes, fun c' => Cut.bytes_eq_iff, ?_⟩
    rw [unmetafy_eq, unmetafyAll_eq]
  · have hsame := unmetafyAll_of_not_mem h
    exact ⟨hsame, (unmetafy_eq bytes).trans hsame⟩

/-- Bytes that look like a mark once they are encoded, and a mark that is left at the end. -/
theorem unmetafy_decodes_marks :
    let disturbing : Finset UInt8 := {0x83, 0xA3}
    metaMark ∈ disturbing ∧
      metafy disturbing [0x83, 0x20, 0xA3] = [0x83, 0xA3, 0x20, 0x83, 0x83] ∧
      unmetafy (metafy disturbing [0x83, 0x20, 0xA3]) = [0x83, 0x20, 0xA3] ∧
      (∃ c : Cut, c.bytes = [0x83, 0x83, 0x83] ∧ unmetafy [0x83, 0x83, 0x83] = [0xA3] ∧
        c.pieces.map Piece.value = [0xA3]) ∧
      metaMark ∉ [(0x6C : UInt8), 0x73] ∧ unmetafyAll [0x6C, 0x73] = [0x6C, 0x73] := by
  intro disturbing
  obtain ⟨hencoded, hcut, hplain⟩ := unmetafy_decodes
  have hmark : metaMark ∈ disturbing := by decide
  have hread : unmetafy [0x83, 0x83, 0x83] = [0xA3] := by decide
  obtain ⟨c, hunique, hvalues⟩ := hcut [0x83, 0x83, 0x83]
  refine ⟨hmark, by decide, hencoded disturbing hmark _, ⟨c, (hunique c).mpr rfl, hread, ?_⟩, by decide,
    (hplain [0x6C, 0x73] (by decide)).1⟩
  rw [← hvalues, hread]

end Zsh

/-- A file of encoded bytes is read as the bytes that were encoded. -/
theorem Dialect.parseBytes_metafy {disturbing : Finset UInt8} (h : Zsh.metaMark ∈ disturbing)
    (content : List UInt8) : Dialect.zsh.parseBytes (Zsh.metafy disturbing content)
      = Zsh.parse (String.ofList (Text.decodeLossy content)) := by
  rw [Dialect.parseBytes, Zsh.unmetafy_metafy h]

end ShellAssist.History
