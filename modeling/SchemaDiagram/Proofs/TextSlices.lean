import SchemaDiagram.TextScan

namespace SchemaDiagram

@[simp] theorem byteLength_nil : byteLength [] = 0 := rfl

@[simp] theorem byteLength_cons (c : Char) (text : List Char) :
    byteLength (c :: text) = c.utf8Size + byteLength text := rfl

@[simp] theorem byteLength_append (first rest : List Char) :
    byteLength (first ++ rest) = byteLength first + byteLength rest := by
  induction first with
  | nil => simp
  | cons c first ih =>
    simp only [List.cons_append, byteLength_cons, ih]
    omega

theorem dropBytes?_cons (c : Char) (count : Nat) (rest : List Char) :
    dropBytes? (c.utf8Size + count) (c :: rest) = dropBytes? count rest := by
  have hpos : 0 < c.utf8Size := c.utf8Size_pos
  have hne : c.utf8Size + count ≠ 0 := by omega
  rw [dropBytes?, if_pos (Nat.le_add_right ..), Nat.add_sub_cancel_left]
  exact hne

theorem takeBytes?_cons (c : Char) (count : Nat) (rest : List Char) :
    takeBytes? (c.utf8Size + count) (c :: rest) = (takeBytes? count rest).map (c :: ·) := by
  have hpos : 0 < c.utf8Size := c.utf8Size_pos
  have hne : c.utf8Size + count ≠ 0 := by omega
  rw [takeBytes?, if_pos (Nat.le_add_right ..), Nat.add_sub_cancel_left]
  exact hne

theorem dropBytes?_zero (text : List Char) : dropBytes? 0 text = some text := by
  cases text <;> rfl

theorem takeBytes?_zero (text : List Char) : takeBytes? 0 text = some [] := by
  cases text <;> rfl

theorem dropBytes?_append (first rest : List Char) :
    dropBytes? (byteLength first) (first ++ rest) = some rest := by
  induction first with
  | nil => exact dropBytes?_zero rest
  | cons c first ih => exact (dropBytes?_cons c _ _).trans ih

theorem takeBytes?_append (first rest : List Char) :
    takeBytes? (byteLength first) (first ++ rest) = some first := by
  induction first with
  | nil => exact takeBytes?_zero rest
  | cons c first ih =>
    rw [byteLength_cons, List.cons_append, takeBytes?_cons, ih]
    rfl

theorem byteSlice?_append (before slice after : List Char) :
    byteSlice? (before ++ (slice ++ after)) (byteLength before)
      (byteLength before + byteLength slice) = some slice := by
  have hle : byteLength before ≤ byteLength before + byteLength slice := by omega
  have hlength : byteLength before + byteLength slice - byteLength before = byteLength slice := by
    omega
  rw [byteSlice?, if_pos hle, dropBytes?_append, hlength]
  exact takeBytes?_append slice after

end SchemaDiagram
