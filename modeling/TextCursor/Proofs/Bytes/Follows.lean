import TextCursor.Proofs.Bytes.Scan
import TextCursor.Proofs.Cursor.Consumption
import TextCursor.Proofs.Cursor.Numbers
import TextCursor.Proofs.Text.Search

namespace TextCursor

variable {α β σ τ : Type}

theorem Text.byteLength_eq_zero_iff {t : Text} : t.byteLength = 0 ↔ t = [] := by
  cases t with
  | nil => simp
  | cons ch t =>
    have hpos := ch.utf8Size_pos
    simp only [byteLength_cons, reduceCtorEq, iff_false]
    omega

namespace Cursor

theorem byteLength_source (c : Cursor) :
    c.source.byteLength = c.offset + c.remaining.byteLength := by
  rw [source, Text.byteLength_append, byteLength_consumed]

theorem offset_eq_byteLength_iff (c : Cursor) :
    c.offset = c.source.byteLength ↔ c.remaining = [] := by
  rw [byteLength_source, ← Text.byteLength_eq_zero_iff]
  omega

theorem cut?_source (c : Cursor) : c.source.cut? c.offset = some (c.consumed, c.remaining) := by
  rw [← c.byteLength_consumed]
  exact Text.cut?_append _ _

end Cursor

def Cursor.toBytes (c : Cursor) : ByteCursor :=
  ⟨c.source, c.offset, c.delimiters, c.journal⟩

/-- The outcome of a run, retold for byte positions. To go out of bounds is no such outcome. -/
def retell (f : σ → τ) : EStateM.Result Failure σ α → EStateM.Result Panic τ α
  | .ok a s => .ok a (f s)
  | .error e s => .error (.failure e) (f s)

namespace ByteScan

/-- From the position of any cursor, the one run goes as the other does from the cursor. -/
def Follows (bytes : ByteScan α) (read : Scan α) : Prop :=
  ∀ c : Cursor, bytes c.toBytes = retell Cursor.toBytes (read c)

variable {bytes : ByteScan α} {read : Scan α}

theorem Follows.map (h : bytes.Follows read) (f : α → β) : (f <$> bytes).Follows (f <$> read) := by
  intro c
  simp only [Functor.map, EStateM.map, h c]
  cases read c <;> rfl

theorem bind_ok {f : α → ByteScan β} {b b' : ByteCursor} {a : α} (h : bytes b = .ok a b') :
    (bytes >>= f) b = f a b' := by
  simp only [bind, EStateM.bind, h]

theorem bind_error {f : α → ByteScan β} {b b' : ByteCursor} {e : Panic}
    (h : bytes b = .error e b') : (bytes >>= f) b = .error e b' := by
  simp only [bind, EStateM.bind, h]

theorem map_ok {f : α → β} {b b' : ByteCursor} {a : α} (h : bytes b = .ok a b') :
    (f <$> bytes) b = .ok (f a) b' := by
  simp only [Functor.map, EStateM.map, h]

theorem view_run (f : ByteCursor → α) (b : ByteCursor) : view f b = .ok (f b) b := rfl

theorem require_ok {f : ByteCursor → Option α} {b : ByteCursor} {a : α} (h : f b = some a) :
    require f b = .ok a b := by
  simp only [require, h]

section Primitives

variable (c : Cursor)

theorem remaining_toBytes : remaining c.toBytes = .ok c.remaining c.toBytes := by
  apply require_ok
  rw [show c.toBytes.source.cut? c.toBytes.position = _ from c.cut?_source]
  rfl

example :
    remaining ⟨['é'], 1, {}, .ofSettings {}⟩ = .error .bounds ⟨['é'], 1, {}, .ofSettings {}⟩ :=
  rfl

theorem consumed_toBytes : consumed c.toBytes = .ok c.consumed c.toBytes := by
  apply require_ok
  rw [show c.toBytes.source.cut? c.toBytes.position = _ from c.cut?_source]
  rfl

theorem position_toBytes : position c.toBytes = .ok c.offset c.toBytes := rfl

theorem toBytes_advance {t rest : Text} (h : c.remaining = t ++ rest) :
    (c.advance t.length).toBytes = { c.toBytes with position := c.offset + t.byteLength } := by
  have hoffset : (c.advance t.length).offset = c.offset + t.byteLength := by
    rw [← Cursor.byteLength_consumed, (Cursor.advance_length h).2, Text.byteLength_append,
      c.byteLength_consumed]
  simp only [Cursor.toBytes, Cursor.source_advance, hoffset]
  rfl

theorem advance_toBytes {t rest : Text} (h : c.remaining = t ++ rest) :
    advance t.byteLength c.toBytes = .ok t (c.advance t.length).toBytes := by
  have hslice : c.toBytes.source.slice? c.toBytes.position (c.toBytes.position + t.byteLength) =
      some t := by
    have hpos : c.toBytes.position = c.consumed.byteLength := c.byteLength_consumed.symm
    have hsource : c.toBytes.source = c.consumed ++ (t ++ rest) := by rw [← h]; rfl
    rw [hpos, hsource]
    exact Text.slice?_append _ _ _
  rw [advance, bind_ok (require_ok hslice), toBytes_advance c h]
  rfl

theorem record_toBytes {start : Cursor} (h : c.source = start.source) (event : Event) :
    record start.offset event c.toBytes = .ok () (c.record start event).toBytes := by
  have hcut : c.toBytes.source.cut? start.offset = some (start.consumed, start.remaining) := by
    rw [show c.toBytes.source = start.source from h]
    exact start.cut?_source
  have hwindow : c.source.window start.offset c.journal.window =
      start.consumed.drop (start.consumed.length - c.journal.window) ++
        start.remaining.take c.journal.window := by
    rw [Text.window, h, Cursor.source, ← start.byteLength_consumed, Text.splitAtByte_append]
  rw [record, bind_ok (view_run _ _), Cursor.record]
  by_cases hon : c.journal.enabled
  · rw [if_pos (show c.toBytes.journal.enabled from hon), if_pos hon, bind_ok (require_ok hcut),
      Journal.entry, hwindow]
    rfl
  · rw [if_neg (show ¬ c.toBytes.journal.enabled from hon), if_neg hon]
    rfl

theorem recordText_toBytes {start : Cursor} (h : c.source = start.source) (event : Event)
    (fragment : Text) :
    recordText start.offset event fragment c.toBytes =
      .ok () (c.recordText start event fragment).toBytes := by
  unfold recordText Cursor.recordText
  split
  · rfl
  · exact record_toBytes c h event

end Primitives

end ByteScan

end TextCursor
