import DeviceBus.Aes.Block

/-! Blocks and byte strings. Every row of blocks is read back from its bytes, and a byte string whose length is
a multiple of sixteen is made of blocks. -/
namespace DeviceBus.Aes

private theorem length_lt_four {α : Type} {items : List α}
    (short : ∀ a b c d rest, items = a :: b :: c :: d :: rest → False) : items.length < 4 := by
  rcases items with _ | ⟨a, _ | ⟨b, _ | ⟨c, _ | ⟨d, rest⟩⟩⟩⟩
  · simp
  · simp
  · simp
  · simp
  · exact absurd rfl (short a b c d rest)

namespace Column

theorem flatMap_ofBytes (bytes : Bytes) (whole : bytes.length % 4 = 0) :
    (ofBytes bytes).flatMap toBytes = bytes := by
  fun_induction ofBytes bytes with
  | case1 a b c d rest ih =>
    simp only [List.length_cons] at whole
    rw [List.flatMap_cons, ih (by omega)]
    rfl
  | case2 bytes short =>
    have few := length_lt_four short
    have empty : bytes = [] := List.eq_nil_of_length_eq_zero (by omega)
    rw [empty, List.flatMap_nil]

theorem length_ofBytes (bytes : Bytes) : (ofBytes bytes).length = bytes.length / 4 := by
  fun_induction ofBytes bytes with
  | case1 a b c d rest ih =>
    simp only [List.length_cons, ih]
    omega
  | case2 bytes short =>
    have few := length_lt_four short
    rw [List.length_nil]
    omega

end Column

namespace Block

def columns (s : Block) : List Column := [s.w, s.x, s.y, s.z]

private theorem flatMap_columns (s : Block) : s.columns.flatMap Column.toBytes = s.toBytes := rfl

private theorem length_toBytes (s : Block) : s.toBytes.length = 16 := rfl

private theorem flatMap_ofColumns (cs : List Column) (whole : cs.length % 4 = 0) :
    (ofColumns cs).flatMap columns = cs := by
  fun_induction ofColumns cs with
  | case1 w x y z rest ih =>
    simp only [List.length_cons] at whole
    rw [List.flatMap_cons, ih (by omega)]
    rfl
  | case2 cs short =>
    have few := length_lt_four short
    have empty : cs = [] := List.eq_nil_of_length_eq_zero (by omega)
    rw [empty, List.flatMap_nil]

theorem ofBytes_flatMap (blocks : List Block) : ofBytes (blocks.flatMap toBytes) = blocks := by
  induction blocks with
  | nil => rfl
  | cons s rest ih =>
    have head : ofBytes (s.toBytes ++ rest.flatMap toBytes) = s :: ofBytes (rest.flatMap toBytes) := rfl
    rw [List.flatMap_cons, head, ih]

theorem flatMap_ofBytes (bytes : Bytes) (whole : bytes.length % 16 = 0) :
    (ofBytes bytes).flatMap toBytes = bytes := by
  have size := Column.length_ofBytes bytes
  calc (ofBytes bytes).flatMap toBytes
      = ((ofColumns (Column.ofBytes bytes)).flatMap columns).flatMap Column.toBytes := by
        simp only [ofBytes, List.flatMap_assoc, flatMap_columns]
    _ = (Column.ofBytes bytes).flatMap Column.toBytes := by
        rw [flatMap_ofColumns _ (by omega)]
    _ = bytes := Column.flatMap_ofBytes bytes (by omega)

theorem length_flatMap_toBytes (blocks : List Block) :
    (blocks.flatMap toBytes).length = 16 * blocks.length := by
  induction blocks with
  | nil => rfl
  | cons s rest ih =>
    rw [List.flatMap_cons, List.length_append, length_toBytes, ih, List.length_cons]
    omega

end Block
end DeviceBus.Aes
