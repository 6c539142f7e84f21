import TextCursor.Text.Bytes

namespace TextCursor.Text

@[simp] theorem bytes_cons (c : Char) (t : Text) :
    bytes (c :: t) = String.utf8EncodeChar c ++ bytes t := rfl

theorem utf8EncodeChar_append_inj {c d : Char} {a b : List UInt8}
    (h : String.utf8EncodeChar c ++ a = String.utf8EncodeChar d ++ b) : c = d := by
  have hbytes := congrArg List.toByteArray h
  rw [List.toByteArray_append, List.toByteArray_append] at hbytes
  have hdecode := congrArg (ByteArray.utf8DecodeChar? · 0) hbytes
  simpa only [ByteArray.utf8DecodeChar?_utf8EncodeChar_append, Option.some.injEq] using hdecode

theorem bytes_prefix_iff {a t : Text} : bytes a <+: bytes t ↔ a <+: t := by
  constructor
  · intro h
    induction a generalizing t with
    | nil => exact List.nil_prefix
    | cons c a ih =>
      obtain ⟨rest, hrest⟩ := h
      cases t with
      | nil =>
        rw [bytes_cons, List.append_assoc] at hrest
        exact absurd (List.append_eq_nil_iff.1 hrest).1 String.utf8EncodeChar_ne_nil
      | cons d t =>
        rw [bytes_cons, bytes_cons, List.append_assoc] at hrest
        have hcd := utf8EncodeChar_append_inj hrest
        subst hcd
        exact List.cons_prefix_cons.2 ⟨rfl, ih ⟨rest, List.append_cancel_left hrest⟩⟩
  · rintro ⟨rest, rfl⟩
    exact ⟨bytes rest, by simp [bytes]⟩

/-- Scanning a text byte by byte, one finds a byte where scanning its characters finds it. -/
theorem idxOf?_bytes (b : UInt8) (t : Text) : (bytes t).idxOf? b = firstByte? b t := by
  induction t with
  | nil => rfl
  | cons c t ih =>
    have hstep : (bytes (c :: t)).idxOf? b =
        ((String.utf8EncodeChar c).idxOf? b).or
          (((bytes t).idxOf? b).map (· + (String.utf8EncodeChar c).length)) := by
      rw [bytes_cons, List.idxOf?, List.findIdx?_append]
    rw [hstep, firstByte?, ih, String.length_utf8EncodeChar]
    cases (String.utf8EncodeChar c).idxOf? b <;> rfl

theorem utf8EncodeChar_of_ascii {c : Char} (h : c.toNat < 128) :
    String.utf8EncodeChar c = [UInt8.ofNat c.toNat] :=
  if_pos (Nat.le_of_lt_succ h)

theorem le_of_mem_utf8EncodeChar {c : Char} (h : 128 ≤ c.toNat) {b : UInt8}
    (hb : b ∈ String.utf8EncodeChar c) : 128 ≤ b.toNat := by
  have hascii : ¬ c.val.toNat ≤ 127 := Nat.not_le_of_lt h
  simp only [String.utf8EncodeChar, if_neg hascii] at hb
  split at hb
  · simp only [List.mem_cons, List.not_mem_nil, or_false] at hb
    rcases hb with rfl | rfl <;> simp only [UInt8.toNat_ofNat'] <;> omega
  · split at hb
    · simp only [List.mem_cons, List.not_mem_nil, or_false] at hb
      rcases hb with rfl | rfl | rfl <;> simp only [UInt8.toNat_ofNat'] <;> omega
    · simp only [List.mem_cons, List.not_mem_nil, or_false] at hb
      rcases hb with rfl | rfl | rfl | rfl <;> simp only [UInt8.toNat_ofNat'] <;> omega

theorem firstByte?_of_ascii {separator : Char} (h : separator.toNat < 128) (t : Text) :
    firstByte? (UInt8.ofNat separator.toNat) t = firstChar? separator t := by
  induction t with
  | nil => rfl
  | cons c t ih =>
    have hidx : (String.utf8EncodeChar c).idxOf? (UInt8.ofNat separator.toNat) =
        if c = separator then some 0 else none := by
      have hsep : (UInt8.ofNat separator.toNat).toNat = separator.toNat := by
        rw [UInt8.toNat_ofNat']
        omega
      by_cases hc : c.toNat < 128
      · have hiff : UInt8.ofNat c.toNat = UInt8.ofNat separator.toNat ↔ c = separator := by
          rw [← UInt8.toNat_inj, hsep, UInt8.toNat_ofNat', ← Char.toNat_inj]
          omega
        simp only [utf8EncodeChar_of_ascii hc, List.idxOf?_singleton, beq_iff_eq, hiff]
      · have hne : c ≠ separator := fun he ↦ hc (he ▸ h)
        rw [if_neg hne, List.idxOf?_eq_none_iff]
        intro hmem
        have := le_of_mem_utf8EncodeChar (Nat.le_of_not_lt hc) hmem
        omega
    rw [firstByte?, firstChar?, hidx, ih]
    by_cases hc : c = separator
    · rw [if_pos hc, if_pos hc]
    · rw [if_neg hc, if_neg hc]

theorem indexOf?_eq (separator : Char) (t : Text) :
    t.indexOf? separator = firstChar? separator t := by
  unfold indexOf?
  split
  · exact firstByte?_of_ascii ‹_› t
  · rfl

structure SplitsAt (separator : Char) (t before after : Text) : Prop where
  eq : t = before ++ separator :: after
  not_mem : separator ∉ before

/-- What a search for a separator is to find: how many bytes stand before its first occurrence, or
nothing where it does not occur. -/
def FoundAt (separator : Char) (t : Text) : Option Nat → Prop
  | none => separator ∉ t
  | some i => ∃ before after, t.SplitsAt separator before after ∧ i = before.bytes.length

theorem SplitsAt.cons {separator c : Char} {t before after : Text}
    (h : SplitsAt separator t before after) (hc : c ≠ separator) :
    SplitsAt separator (c :: t) (c :: before) after where
  eq := congrArg (c :: ·) h.eq
  not_mem := List.not_mem_cons_of_ne_of_not_mem hc.symm h.not_mem

theorem SplitsAt.eq_append {separator : Char} {t before after : Text}
    (h : SplitsAt separator t before after) : t = (before ++ [separator]) ++ after := by
  rw [h.eq, List.append_assoc, List.singleton_append]

theorem SplitsAt.mem {separator : Char} {t before after : Text}
    (h : SplitsAt separator t before after) : separator ∈ t := by
  rw [h.eq]
  exact List.mem_append_right before List.mem_cons_self

theorem exists_splitsAt {separator : Char} {t : Text} (h : separator ∈ t) :
    ∃ before after, t.SplitsAt separator before after := by
  obtain ⟨before, after, ht, hnot⟩ := List.eq_append_cons_of_mem h
  exact ⟨before, after, ht, hnot⟩

theorem foundAt_firstChar? (separator : Char) (t : Text) :
    t.FoundAt separator (firstChar? separator t) := by
  induction t with
  | nil => exact List.not_mem_nil
  | cons c t ih =>
    rw [firstChar?]
    by_cases hc : c = separator
    · rw [if_pos hc, hc]
      exact ⟨[], t, ⟨rfl, List.not_mem_nil⟩, rfl⟩
    · rw [if_neg hc]
      cases hfound : firstChar? separator t with
      | none =>
        rw [hfound] at ih
        exact List.not_mem_cons_of_ne_of_not_mem (Ne.symm hc) ih
      | some i =>
        rw [hfound] at ih
        obtain ⟨before, after, hsplit, rfl⟩ := ih
        refine ⟨c :: before, after, hsplit.cons hc, ?_⟩
        rw [length_bytes, length_bytes, byteLength_cons, Nat.add_comm]

theorem firstChar?_of_splitsAt {separator : Char} {t before after : Text}
    (h : SplitsAt separator t before after) :
    firstChar? separator t = some (byteLength before) := by
  obtain ⟨rfl, hnot⟩ := h
  induction before with
  | nil => exact if_pos rfl
  | cons c before ih =>
    have hc : c ≠ separator := List.ne_of_not_mem_cons hnot |>.symm
    rw [List.cons_append, firstChar?, if_neg hc, ih (List.not_mem_of_not_mem_cons hnot),
      Option.map_some, byteLength_cons, Nat.add_comm]

theorem firstChar?_eq_iff {separator : Char} {t : Text} {found : Option Nat} :
    firstChar? separator t = found ↔ t.FoundAt separator found := by
  constructor
  · rintro rfl
    exact foundAt_firstChar? separator t
  · intro h
    cases found with
    | none =>
      cases hfirst : firstChar? separator t with
      | none => rfl
      | some i =>
        have hfound := foundAt_firstChar? separator t
        rw [hfirst] at hfound
        obtain ⟨_, _, hsplit, -⟩ := hfound
        exact absurd hsplit.mem h
    | some i =>
      obtain ⟨before, after, hsplit, rfl⟩ := h
      rw [firstChar?_of_splitsAt hsplit, length_bytes]

theorem indexOf?_eq_iff {separator : Char} {t : Text} {found : Option Nat} :
    t.indexOf? separator = found ↔ t.FoundAt separator found := by
  rw [indexOf?_eq, firstChar?_eq_iff]

theorem idxOf?_bytes_eq_iff {separator : Char} (h : separator.toNat < 128) {t : Text}
    {found : Option Nat} :
    t.bytes.idxOf? (UInt8.ofNat separator.toNat) = found ↔ t.FoundAt separator found := by
  rw [idxOf?_bytes, firstByte?_of_ascii h, firstChar?_eq_iff]

end TextCursor.Text
