import ApiDoc.Proofs.Comment.Blocks
import ApiDoc.Proofs.Text.Ascii

/-!
Blocks of undecoded bytes.

The blocks of a file can be searched before it is decoded. Decoding keeps every marker in its place, so each
block is decoded as if it stood alone, and bytes that are no UTF-8 count only for the block they stand in.
-/

namespace ApiDoc

namespace Comment

def byteMarkers : Delimiters UInt8 where
  opening := Utf8.encode "/*#".toList
  closing := Utf8.encode "*/".toList

theorem first?_decodeLossy (raw : Bytes) : markers.first? (Utf8.decodeLossy raw) =
    (byteMarkers.first? raw).map fun (body, rest) =>
      (Utf8.decodeLossy body, Utf8.decodeLossy rest) := by
  have opened : cutAt? markers.opening (Utf8.decodeLossy raw) =
      (cutAt? byteMarkers.opening raw).map fun (before, rest) =>
        (Utf8.decodeLossy before, Utf8.decodeLossy rest) :=
    Utf8.cutAt?_decodeLossy (by decide) (by decide) opening_unbordered raw
  rw [Delimiters.first?, Delimiters.first?, opened]
  cases cutAt? byteMarkers.opening raw with
  | none => rfl
  | some parts =>
      exact Utf8.cutAt?_decodeLossy (by decide) (by decide) closing_unbordered parts.2

theorem blocks_decodeLossy_eq_map (raw : Bytes) :
    blocks (Utf8.decodeLossy raw) = (byteMarkers.bodies raw).map Utf8.decodeLossy := by
  induction raw using Delimiters.scan.induct byteMarkers with
  | case1 raw none =>
      have missing := first?_decodeLossy raw
      rw [none] at missing
      rw [blocks, Delimiters.bodies_of_none missing, Delimiters.bodies_of_none none, List.map_nil]
  | case2 raw body rest found ih =>
      have decoded := first?_decodeLossy raw
      rw [found] at decoded
      rw [blocks, Delimiters.bodies_of_some decoded, Delimiters.bodies_of_some found, List.map_cons]
      exact congrArg _ ih

/-- The blocks of decoded bytes are the decoded blocks of the bytes. What stands in a gap before a block does
not count, and no block depends on the bytes of another. -/
theorem blocks_decodeLossy (raw : Bytes) :
    blocks (Utf8.decodeLossy raw) = (byteMarkers.bodies raw).map Utf8.decodeLossy ∧
      ∀ gap body rest, ¬ byteMarkers.opening <:+: gap → ¬ byteMarkers.closing <:+: body →
        raw = gap ++ byteMarkers.opening ++ (body ++ byteMarkers.closing ++ rest) →
        blocks (Utf8.decodeLossy raw) =
          Utf8.decodeLossy body :: blocks (Utf8.decodeLossy rest) := by
  refine ⟨blocks_decodeLossy_eq_map raw, ?_⟩
  rintro gap body rest gap_free body_free rfl
  rw [blocks_decodeLossy_eq_map, blocks_decodeLossy_eq_map rest, Delimiters.bodies,
    Delimiters.scan_append (by decide) (by decide) gap_free body_free, List.map_cons]
  rfl

theorem blocks_decodeLossy_broken :
    blocks (Utf8.decodeLossy ([0xE2, 0x82] ++ byteMarkers.opening ++
        ([0x80, 0x2A, 0xF0, 0x9F] ++ byteMarkers.closing ++ [0x98, 0x80]))) =
      Utf8.decodeLossy [0x80, 0x2A, 0xF0, 0x9F] :: blocks (Utf8.decodeLossy [0x98, 0x80]) :=
  (blocks_decodeLossy _).2 _ _ _ (by decide) (by decide) rfl

end Comment

end ApiDoc
