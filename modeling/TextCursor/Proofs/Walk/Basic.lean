import Mathlib.Data.List.Forall2
import TextCursor.Proofs.Reading.IndexPath
import TextCursor.Proofs.Reading.Lookahead

namespace TextCursor

open Scan (Completed)

/-- What a journal tells of a value that was read: its numbers and its words, the elements of its
lists, and the separators between these, each behind the element with the given index. -/
inductive Landmark
  | integer (type : IntegerType)
  | word
  | element (shape : Shape) (value : Value)
  | separator (ch : Char) (index : Nat)

def Landmark.event : Landmark → Event
  | integer _ => .integer
  | word => .word
  | element _ _ => .listElement
  | separator _ _ => .literal

/-- Landmarks in the order in which they are told of, each with the indexes that lead to it. -/
abbrev Walk := List (Path × Landmark)

namespace Walk

def inside (index : Nat) (walk : Walk) : Walk :=
  walk.map (Prod.map (index :: ·) id)

def element (shape : Shape) (walk : Value → Walk) (index : Nat) (v : Value) : Walk :=
  inside index (walk v) ++ [([index], .element shape v)]

def separator (d : Delimiters) (index : Nat) : Walk :=
  [([], .separator d.separator index)]

/-- As long as a list is open, each of its elements has been followed by a separator. -/
def openList (d : Delimiters) (shape : Shape) (walk : Value → Walk) (vs : List Value) : Walk :=
  (vs.mapIdx fun i v ↦ element shape walk i v ++ separator d i).flatten

/-- No separator follows the last element. -/
def list (d : Delimiters) (shape : Shape) (walk : Value → Walk) (vs : List Value) : Walk :=
  (openList d shape walk vs).dropLast

variable {d : Delimiters} {shape : Shape} {walk : Value → Walk}

theorem openList_concat (vs : List Value) (v : Value) :
    openList d shape walk (vs ++ [v]) =
      openList d shape walk vs ++ (element shape walk vs.length v ++ separator d vs.length) := by
  simp only [openList, List.mapIdx_concat, List.flatten_append, List.flatten_singleton]

theorem list_concat (vs : List Value) (v : Value) :
    list d shape walk (vs ++ [v]) =
      openList d shape walk vs ++ element shape walk vs.length v := by
  rw [list, openList_concat, ← List.append_assoc]
  exact List.dropLast_concat

end Walk

/-- The walk through a value in post-order. -/
def Shape.walk (configured : Delimiters) : Shape → Value → Walk
  | .integer type, .integer _ => [([], .integer type)]
  | .word, .text w => if w.isEmpty then [] else [([], .word)]
  | .list shape, .list vs => Walk.list configured shape (shape.walk configured) vs
  | .listWith d shape, .list vs => Walk.list d shape (shape.walk configured) vs
  | _, _ => []

/-- The walk through the lists that are open, of each of which the completed elements are given. -/
def Shape.openWalk (configured : Delimiters) : Shape → List (List Value) → Walk
  | .list shape, vs :: opened =>
    Walk.openList configured shape (shape.walk configured) vs ++
      Walk.inside vs.length (shape.openWalk configured opened)
  | .listWith d shape, vs :: opened =>
    Walk.openList d shape (shape.walk configured) vs ++
      Walk.inside vs.length (shape.openWalk configured opened)
  | _, _ => []

inductive Shape.Lists (c : Cursor) : Delimiters → Shape → Shape → Prop
  | list (element : Shape) : Lists c c.delimiters element (.list element)
  | listWith (d : Delimiters) (element : Shape) : Lists c d element (.listWith d element)

/-- In the reading of `shape` from `c`, the reading of `inner` begins at the position, in the
element that the path leads to. -/
def Shape.BeginsAt (shape : Shape) (c : Cursor) (p : Path) (inner : Shape) (position : Nat) :
    Prop :=
  ∃ opened s, Visits (.read shape) ⟨c, []⟩ opened (.read inner) s ∧ opened.map List.length = p ∧
    s.cursor.offset = position

/-- In the list that is read from `c`, the element with the index ends at the position, and the
separator comes next. -/
def Scan.SeparatesAt {α : Type} (d : Delimiters) (read : Scan α) (c : Cursor)
    (index position : Nat) : Prop :=
  ∃ vs mid v next, Completed d read c vs mid ∧ vs.length = index ∧
    Scan.element d read index mid = .ok v next ∧ next.offset = position ∧
    next.remaining.head? = some d.separator

def Shape.SeparatesAt (shape : Shape) (c : Cursor) (p : Path) (ch : Char) (index position : Nat) :
    Prop :=
  ∃ opened inner s d element, Visits (.read shape) ⟨c, []⟩ opened (.read inner) s ∧
    opened.map List.length = p ∧ Lists s.cursor d element inner ∧ d.separator = ch ∧
    Scan.SeparatesAt d element.read s.cursor index position

/-- The landmark stands at the position in the reading of `shape` from `c`. A value that stands
there is read from any cursor that comes to this place. -/
def Landmark.StandsAt (shape : Shape) (c : Cursor) (p : Path) (position : Nat) : Landmark → Prop
  | integer type => shape.BeginsAt c p (.integer type) position
  | word => shape.BeginsAt c p .word position
  | element inner v => shape.BeginsAt c p inner position ∧
    ∀ start : Cursor, start.source = c.source → start.delimiters = c.delimiters →
      start.offset = position → ∃ last, inner.read start = .ok v last
  | separator ch index => shape.SeparatesAt c p ch index position

structure Entry.Marks (shape : Shape) (c : Cursor) (mark : Path × Landmark) (e : Entry) :
    Prop where
  event : e.event = mark.2.event
  path : e.path = if c.journal.tracksPath then some (c.path ++ mark.1) else none
  place : mark.2.StandsAt shape c mark.1 e.position

/-- Between the two cursors one entry has been noted for each landmark of the walk, unless no
entries are noted at all. -/
def Cursor.Notes (Q : Path × Landmark → Entry → Prop) (walk : Walk) (c c' : Cursor) : Prop :=
  ∃ noted, c'.journal.entries = c.journal.entries ++ noted ∧
    List.Forall₂ Q (if c.journal.enabled then walk else []) noted

namespace Cursor

variable {Q : Path × Landmark → Entry → Prop} {walk walk' : Walk} {c c' c'' : Cursor}

theorem splitAtByte_source (c : Cursor) :
    c.source.splitAtByte c.offset = (c.consumed, c.remaining) := by
  rw [← c.byteLength_consumed]
  exact Text.splitAtByte_append _ _

theorem remaining_eq (hsource : c'.source = c.source) (hoffset : c'.offset = c.offset) :
    c'.remaining = c.remaining := by
  have hsplit := c'.splitAtByte_source
  rw [hsource, hoffset, c.splitAtByte_source] at hsplit
  exact (congrArg Prod.snd hsplit).symm

namespace Notes

theorem of_entries_eq (h : c'.journal.entries = c.journal.entries) : Notes Q [] c c' := by
  refine ⟨[], by rw [h, List.append_nil], ?_⟩
  rw [ite_self]
  exact .nil

theorem append (h : Notes Q walk c c') (h' : Notes Q walk' c' c'')
    (hon : c'.journal.enabled = c.journal.enabled) : Notes Q (walk ++ walk') c c'' := by
  obtain ⟨noted, hnoted, hall⟩ := h
  obtain ⟨noted', hnoted', hall'⟩ := h'
  rw [hon] at hall'
  refine ⟨noted ++ noted', by rw [hnoted', hnoted, List.append_assoc], ?_⟩
  have happend := List.rel_append hall hall'
  cases h : c.journal.enabled <;> rw [h] at happend <;> exact happend

theorem record {mark : Path × Landmark} {start : Cursor} {event : Event}
    (hQ : c.journal.enabled = true → Q mark (c.journal.entry c.source start.offset event)) :
    Notes Q [mark] c (c.record start event) := by
  refine ⟨_, c.entries_record start event, ?_⟩
  split
  · rename_i hon
    exact .cons (hQ hon) .nil
  · exact .nil

theorem of_start {start : Cursor} (h : Notes Q walk start c')
    (hentries : start.journal.entries = c.journal.entries)
    (hon : start.journal.enabled = c.journal.enabled) : Notes Q walk c c' := by
  obtain ⟨noted, hnoted, hall⟩ := h
  rw [hentries] at hnoted
  rw [hon] at hall
  exact ⟨noted, hnoted, hall⟩

theorem to_end {last : Cursor} (h : Notes Q walk c c')
    (hentries : last.journal.entries = c'.journal.entries) : Notes Q walk c last := by
  obtain ⟨noted, hnoted, hall⟩ := h
  exact ⟨noted, hentries.trans hnoted, hall⟩

theorem inside {Q' : Path × Landmark → Entry → Prop} {index : Nat} (h : Notes Q walk c c')
    (hQ : c.journal.enabled = true → ∀ p m e, Q (p, m) e → Q' (index :: p, m) e) :
    Notes Q' (Walk.inside index walk) c c' := by
  obtain ⟨noted, hnoted, hall⟩ := h
  refine ⟨noted, hnoted, ?_⟩
  cases hon : c.journal.enabled with
  | true =>
    rw [hon, if_pos rfl] at hall
    exact List.forall₂_map_left_iff.2 (hall.imp fun mark e hmark ↦ hQ hon mark.1 mark.2 e hmark)
  | false =>
    rw [hon] at hall
    cases hall
    exact .nil

end Notes

end Cursor

end TextCursor
