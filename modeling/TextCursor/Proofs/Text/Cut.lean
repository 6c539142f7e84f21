import TextCursor.Text.Bytes

namespace TextCursor

def sub? (a b : Nat) : Option Nat :=
  if b ≤ a then some (a - b) else none

theorem sub?_add_left (a b : Nat) : sub? (a + b) a = some b := by
  simp [sub?]

theorem sub?_add_right (a b : Nat) : sub? (a + b) b = some a := by
  simp [sub?]

namespace Text

/-- Cuts a text at a byte position, which must lie in the text and not inside a character. -/
def cut? : Nat → Text → Option (Text × Text)
  | 0, t => some ([], t)
  | _ + 1, [] => none
  | n + 1, c :: rest =>
    if c.utf8Size ≤ n + 1 then
      (cut? (n + 1 - c.utf8Size) rest).map fun (before, after) ↦ (c :: before, after)
    else none

def slice? (start stop : Nat) (t : Text) : Option Text := do
  let n ← sub? stop start
  let (_, after) ← t.cut? start
  let (piece, _) ← after.cut? n
  return piece

theorem cut?_append (a b : Text) : cut? (byteLength a) (a ++ b) = some (a, b) := by
  induction a with
  | nil => simp [cut?]
  | cons c a ih =>
    obtain ⟨n, hn⟩ := Nat.exists_eq_add_of_lt c.utf8Size_pos
    have hlen : byteLength (c :: a) = (n + byteLength a) + 1 := by
      rw [byteLength_cons]
      omega
    have hle : c.utf8Size ≤ n + byteLength a + 1 := by omega
    have hsub : n + byteLength a + 1 - c.utf8Size = byteLength a := by omega
    rw [hlen, List.cons_append, cut?, if_pos hle, hsub, ih]
    rfl

theorem of_cut? {n : Nat} {t a b : Text} (h : cut? n t = some (a, b)) :
    t = a ++ b ∧ n = byteLength a := by
  induction t generalizing n a with
  | nil =>
    cases n with
    | zero => cases h; exact ⟨rfl, rfl⟩
    | succ n => cases h
  | cons c t ih =>
    cases n with
    | zero => cases h; exact ⟨rfl, rfl⟩
    | succ n =>
      rw [cut?] at h
      split at h
      · obtain ⟨⟨a', b'⟩, hcut, hab⟩ := Option.map_eq_some_iff.1 h
        cases hab
        obtain ⟨rfl, hn⟩ := ih hcut
        refine ⟨rfl, ?_⟩
        rw [byteLength_cons]
        omega
      · cases h

theorem slice?_append (a b c : Text) :
    slice? (byteLength a) (byteLength a + byteLength b) (a ++ (b ++ c)) = some b := by
  simp only [slice?, sub?_add_left, cut?_append, Option.bind_eq_bind, Option.bind_some]
  rfl

theorem byteLength_eq_utf8ByteSize (t : Text) : byteLength t = (String.ofList t).utf8ByteSize := by
  induction t with
  | nil => rfl
  | cons c t ih => simp [String.ofList_cons, ih]

/-- A text can be cut between its characters, and nowhere else. -/
theorem cut?_isSome_iff {n : Nat} {t : Text} :
    (cut? n t).isSome ↔ String.Pos.Raw.IsValid (String.ofList t) ⟨n⟩ := by
  rw [String.Pos.Raw.isValid_ofList]
  constructor
  · intro h
    obtain ⟨⟨a, b⟩, hcut⟩ := Option.isSome_iff_exists.1 h
    obtain ⟨rfl, rfl⟩ := of_cut? hcut
    refine ⟨a.length, ?_⟩
    rw [List.take_left, ← byteLength_eq_utf8ByteSize]
  · rintro ⟨i, hi⟩
    rw [← byteLength_eq_utf8ByteSize] at hi
    have hcut := cut?_append (t.take i) (t.drop i)
    rw [List.take_append_drop, ← hi] at hcut
    rw [hcut]
    rfl

end Text

end TextCursor
