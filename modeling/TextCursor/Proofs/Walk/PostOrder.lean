import Mathlib.Data.List.Induction
import TextCursor.Proofs.Text.PathText
import TextCursor.Proofs.Walk.Reading

namespace TextCursor

/-- The value that the indexes lead to within a value, and the shape that it was read by. -/
def Shape.at? : Shape → Value → Path → Option (Shape × Value)
  | shape, v, [] => some (shape, v)
  | .list shape, .list vs, i :: p => vs[i]?.bind fun v ↦ shape.at? v p
  | .listWith _ shape, .list vs, i :: p => vs[i]?.bind fun v ↦ shape.at? v p
  | _, _, _ :: _ => none

/-- What a value has noted with its own path: a number or a word itself, and a list one separator
less than it has elements. -/
def Shape.ownLandmarks (configured : Delimiters) : Shape → Value → List Landmark
  | .integer type, .integer _ => [.integer type]
  | .word, .text w => if w.isEmpty then [] else [.word]
  | .list _, .list vs => (List.range (vs.length - 1)).map (.separator configured.separator)
  | .listWith d _, .list vs => (List.range (vs.length - 1)).map (.separator d.separator)
  | _, _ => []

def Shape.landmarksAt (configured : Delimiters) (shape : Shape) (v : Value) (p : Path) :
    List Landmark :=
  match shape.at? v p with
  | none => []
  | some (inner, w) =>
    inner.ownLandmarks configured w ++ if p = [] then [] else [.element inner w]

def Landmark.element? : Landmark → Option (Shape × Value)
  | .element shape v => some (shape, v)
  | _ => none

/-- Indexes in post-order: what lies within an element comes before it, and it before the later
elements of its list. -/
def Path.Precedes : Path → Path → Prop
  | [], _ => False
  | _ :: _, [] => True
  | i :: p, j :: q => i < j ∨ i = j ∧ Precedes p q

theorem Path.precedes_of_head_lt {p q : Path} {i j : Nat} (hp : p.head? = some i)
    (hq : q.head? = some j) (h : i < j) : Path.Precedes p q := by
  obtain ⟨p, rfl⟩ := List.head?_eq_some_iff.1 hp
  obtain ⟨q, rfl⟩ := List.head?_eq_some_iff.1 hq
  exact .inl h

namespace Walk

def onPath (p : Path) (walk : Walk) : List Landmark :=
  walk.filterMap fun mark ↦ if mark.1 = p then some mark.2 else none

def elements (walk : Walk) : List (Path × Shape × Value) :=
  walk.filterMap fun mark ↦ mark.2.element?.map (mark.1, ·)

variable {d : Delimiters} {shape : Shape} {walk : Value → Walk} {vs : List Value} {v : Value}

theorem onPath_append (p : Path) (walk walk' : Walk) :
    onPath p (walk ++ walk') = onPath p walk ++ onPath p walk' :=
  List.filterMap_append

theorem onPath_inside_nil (i : Nat) (walk : Walk) : onPath [] (inside i walk) = [] := by
  simp [onPath, inside]

theorem onPath_inside_cons (i j : Nat) (p : Path) (walk : Walk) :
    onPath (j :: p) (inside i walk) = if i = j then onPath p walk else [] := by
  by_cases h : i = j <;> simp [onPath, inside, List.filterMap_map, h]

theorem onPath_element_nil (i : Nat) : onPath [] (element shape walk i v) = [] := by
  rw [element, onPath_append, onPath_inside_nil]
  rfl

theorem onPath_element_cons (i j : Nat) (p : Path) :
    onPath (j :: p) (element shape walk i v) =
      if i = j then onPath p (walk v) ++ if p = [] then [.element shape v] else [] else [] := by
  have hlast : onPath (j :: p) [([i], .element shape v)] =
      if i = j ∧ p = [] then [.element shape v] else [] := by
    by_cases h : i = j ∧ p = []
    · simp [onPath, h]
    · simp [onPath, h, eq_comm]
  rw [element, onPath_append, onPath_inside_cons, hlast]
  by_cases h : i = j <;> simp [h]

theorem onPath_openList_nil : onPath [] (openList d shape walk vs) =
    (List.range vs.length).map (.separator d.separator) := by
  induction vs using List.reverseRecOn with
  | nil => rfl
  | append_singleton vs v ih =>
    rw [openList_concat, onPath_append, onPath_append, ih, onPath_element_nil, List.length_append,
      List.length_singleton, List.range_succ, List.map_append]
    rfl

theorem onPath_openList_cons (i : Nat) (p : Path) : onPath (i :: p) (openList d shape walk vs) =
    (vs[i]?).elim [] fun v ↦ onPath p (walk v) ++ if p = [] then [.element shape v] else [] := by
  induction vs using List.reverseRecOn with
  | nil => rfl
  | append_singleton vs v ih =>
    have hseparator : onPath (i :: p) (separator d vs.length) = [] := rfl
    rw [openList_concat, onPath_append, onPath_append, ih, onPath_element_cons, hseparator]
    rcases Nat.lt_trichotomy i vs.length with hi | hi | hi
    · have hne : vs.length ≠ i := by omega
      simp [List.getElem?_append_left hi, hne]
    · simp [hi]
    · have hne : vs.length ≠ i := by omega
      have hlast : (vs ++ [v])[i]? = none :=
        List.getElem?_eq_none (by simpa using Nat.succ_le_of_lt hi)
      simp [hlast, List.getElem?_eq_none (Nat.le_of_lt hi), hne]

theorem openList_eq (h : vs ≠ []) :
    openList d shape walk vs = list d shape walk vs ++ separator d (vs.length - 1) := by
  obtain ⟨init, v, rfl⟩ := (List.eq_nil_or_concat' vs).resolve_left h
  rw [openList_concat, list_concat, List.append_assoc, List.length_append, List.length_singleton,
    Nat.add_sub_cancel]

theorem onPath_list_nil : onPath [] (list d shape walk vs) =
    (List.range (vs.length - 1)).map (.separator d.separator) := by
  rcases List.eq_nil_or_concat' vs with rfl | ⟨init, v, rfl⟩
  · rfl
  · rw [list_concat, onPath_append, onPath_openList_nil, onPath_element_nil, List.append_nil,
      List.length_append, List.length_singleton, Nat.add_sub_cancel]

theorem onPath_list_cons (i : Nat) (p : Path) : onPath (i :: p) (list d shape walk vs) =
    (vs[i]?).elim [] fun v ↦ onPath p (walk v) ++ if p = [] then [.element shape v] else [] := by
  by_cases h : vs = []
  · subst h
    rfl
  · have hopen : onPath (i :: p) (openList d shape walk vs) =
        onPath (i :: p) (list d shape walk vs) ++
          onPath (i :: p) (separator d (vs.length - 1)) := by
      rw [openList_eq h, onPath_append]
    rw [← onPath_openList_cons (d := d), hopen]
    exact (List.append_nil _).symm

end Walk

theorem Shape.landmarksAt_element (configured : Delimiters) (shape : Shape) (v : Value) (p : Path) :
    (shape.landmarksAt configured v p ++ if p = [] then [.element shape v] else []) =
      (shape.at? v p).elim [] fun (inner, w) ↦
        inner.ownLandmarks configured w ++ [.element inner w] := by
  cases p with
  | nil => simp [Shape.landmarksAt, Shape.at?]
  | cons i p =>
    unfold Shape.landmarksAt
    cases shape.at? v (i :: p) <;> simp

theorem Shape.onPath_walk_leaf {configured : Delimiters} {shape : Shape} {v : Value}
    (hat : ∀ i p, shape.at? v (i :: p) = none)
    (hwalk : shape.walk configured v = (shape.ownLandmarks configured v).map ([], ·)) (p : Path) :
    Walk.onPath p (shape.walk configured v) = shape.landmarksAt configured v p := by
  rw [hwalk, Shape.landmarksAt]
  cases p with
  | nil => simp [Walk.onPath, Shape.at?, List.filterMap_map]
  | cons i p => simp [Walk.onPath, hat, List.filterMap_map]

theorem Shape.onPath_walk (configured : Delimiters) (shape : Shape) (v : Value) (p : Path) :
    Walk.onPath p (shape.walk configured v) = shape.landmarksAt configured v p := by
  induction shape generalizing v p with
  | integer type | char | steps steps =>
    cases v <;> exact Shape.onPath_walk_leaf (fun _ _ ↦ rfl) rfl p
  | word =>
    cases v with
    | text w => cases w <;> exact Shape.onPath_walk_leaf (fun _ _ ↦ rfl) rfl p
    | _ => exact Shape.onPath_walk_leaf (fun _ _ ↦ rfl) rfl p
  | list element ih | listWith d element ih =>
    cases v with
    | list vs =>
      cases p with
      | nil =>
        rw [Shape.walk, Walk.onPath_list_nil]
        exact (List.append_nil _).symm
      | cons i p =>
        rw [Shape.walk, Walk.onPath_list_cons]
        cases hv : vs[i]? with
        | none => simp [Shape.landmarksAt, Shape.at?, hv]
        | some v =>
          simp only [Option.elim_some, ih, Shape.landmarksAt_element]
          simp only [Shape.landmarksAt, Shape.at?, hv, Option.bind_some]
          cases element.at? v p <;> simp
    | _ => exact Shape.onPath_walk_leaf (fun _ _ ↦ rfl) rfl p

theorem Walk.mem_elements {walk : Walk} {p : Path} {shape : Shape} {v : Value} :
    (p, shape, v) ∈ elements walk ↔ .element shape v ∈ onPath p walk := by
  simp only [elements, onPath, List.mem_filterMap]
  constructor
  · rintro ⟨⟨q, m⟩, hm, hq⟩
    cases m with
    | element => cases hq; exact ⟨_, hm, if_pos rfl⟩
    | _ => cases hq
  · rintro ⟨⟨q, m⟩, hm, hq⟩
    split at hq
    · rename_i hp
      cases hp
      cases hq
      exact ⟨_, hm, rfl⟩
    · cases hq

theorem Shape.mem_elements_walk {configured : Delimiters} {shape inner : Shape} {v w : Value}
    {p : Path} : (p, inner, w) ∈ Walk.elements (shape.walk configured v) ↔
      p ≠ [] ∧ shape.at? v p = some (inner, w) := by
  have hown (shape : Shape) (v : Value) : .element inner w ∉ shape.ownLandmarks configured v := by
    unfold Shape.ownLandmarks
    split <;> simp
  rw [Walk.mem_elements, Shape.onPath_walk, Shape.landmarksAt]
  cases hat : shape.at? v p with
  | none => simp
  | some found => by_cases h : p = [] <;> simp [hown, h, Prod.ext_iff, eq_comm]

namespace Walk

theorem elements_append (walk walk' : Walk) :
    elements (walk ++ walk') = elements walk ++ elements walk' :=
  List.filterMap_append

theorem elements_inside (i : Nat) (walk : Walk) :
    elements (inside i walk) = (elements walk).map (Prod.map (i :: ·) id) := by
  simp only [elements, inside, List.filterMap_map, List.map_filterMap]
  refine List.filterMap_congr fun mark _ ↦ ?_
  cases h : mark.2.element? <;> simp [h]

structure Ordered (walk : Walk) : Prop where
  pairwise : (elements walk).Pairwise fun x y ↦ Path.Precedes x.1 y.1
  ne_nil : ∀ x ∈ elements walk, x.1 ≠ []

variable {d : Delimiters} {shape : Shape} {walk : Value → Walk} {vs : List Value} {v : Value}

theorem elements_element (i : Nat) : elements (element shape walk i v) =
    (elements (walk v)).map (Prod.map (i :: ·) id) ++ [([i], shape, v)] := by
  rw [element, elements_append, elements_inside]
  rfl

theorem head?_of_mem_element {i : Nat} {x : Path × Shape × Value}
    (h : x ∈ elements (element shape walk i v)) : x.1.head? = some i := by
  rw [elements_element, List.mem_append, List.mem_map, List.mem_singleton] at h
  rcases h with ⟨y, -, rfl⟩ | rfl
  · rfl
  · rfl

theorem Ordered.element (h : Ordered (walk v)) (i : Nat) : Ordered (element shape walk i v) where
  pairwise := by
    rw [elements_element]
    refine List.pairwise_append.2 ⟨?_, List.pairwise_singleton _ _, ?_⟩
    · exact h.pairwise.map _ fun x y hxy ↦ .inr ⟨rfl, hxy⟩
    · intro x hx y hy
      obtain ⟨z, hz, rfl⟩ := List.mem_map.1 hx
      cases List.mem_singleton.1 hy
      refine .inr ⟨rfl, ?_⟩
      have hne := h.ne_nil z hz
      cases hp : z.1 with
      | nil => exact absurd hp hne
      | cons j q => trivial
  ne_nil x hx hnil := by
    have hhead := head?_of_mem_element hx
    rw [hnil] at hhead
    cases hhead

theorem Ordered.openList (h : ∀ v, Ordered (walk v)) (vs : List Value) :
    Ordered (openList d shape walk vs) ∧
      ∀ x ∈ elements (Walk.openList d shape walk vs), ∃ i < vs.length, x.1.head? = some i := by
  induction vs using List.reverseRecOn with
  | nil => exact ⟨⟨.nil, by simp [Walk.openList, elements]⟩, by simp [Walk.openList, elements]⟩
  | append_singleton vs v ih =>
    obtain ⟨hopen, hheads⟩ := ih
    have hlast : Ordered (Walk.element shape walk vs.length v) := (h v).element _
    have hconcat : elements (Walk.openList d shape walk (vs ++ [v])) =
        elements (Walk.openList d shape walk vs) ++
          elements (Walk.element shape walk vs.length v) := by
      rw [openList_concat, elements_append, elements_append]
      exact congrArg _ (List.append_nil _)
    refine ⟨⟨?_, ?_⟩, ?_⟩
    · rw [hconcat]
      refine List.pairwise_append.2 ⟨hopen.pairwise, hlast.pairwise, fun x hx y hy ↦ ?_⟩
      obtain ⟨i, hi, hx⟩ := hheads x hx
      exact Path.precedes_of_head_lt hx (head?_of_mem_element hy) hi
    · intro x hx
      rw [hconcat] at hx
      exact (List.mem_append.1 hx).elim (hopen.ne_nil x) (hlast.ne_nil x)
    · intro x hx
      rw [hconcat] at hx
      rw [List.length_append, List.length_singleton]
      rcases List.mem_append.1 hx with hx | hx
      · obtain ⟨i, hi, hx⟩ := hheads x hx
        exact ⟨i, by omega, hx⟩
      · exact ⟨vs.length, by omega, head?_of_mem_element hx⟩

theorem Ordered.list (h : ∀ v, Ordered (walk v)) (vs : List Value) :
    Ordered (list d shape walk vs) := by
  rcases List.eq_nil_or_concat' vs with rfl | ⟨init, v, rfl⟩
  · exact ⟨.nil, by simp [Walk.list, Walk.openList, elements]⟩
  · have hopen : Ordered (Walk.openList d shape walk (init ++ [v])) := (openList h _).1
    have hconcat : elements (Walk.openList d shape walk (init ++ [v])) =
        elements (Walk.list d shape walk (init ++ [v])) := by
      rw [openList_eq (by simp), elements_append]
      exact List.append_nil _
    exact ⟨hconcat ▸ hopen.pairwise, hconcat ▸ hopen.ne_nil⟩

end Walk

theorem Shape.ordered_walk (configured : Delimiters) (shape : Shape) (v : Value) :
    Walk.Ordered (shape.walk configured v) := by
  have hleaf {walk : Walk} (h : Walk.elements walk = []) : Walk.Ordered walk :=
    ⟨h ▸ .nil, by simp [h]⟩
  induction shape generalizing v with
  | integer type | char | steps steps => cases v <;> exact hleaf rfl
  | word =>
    cases v with
    | text w => cases w <;> exact hleaf rfl
    | _ => exact hleaf rfl
  | list element ih | listWith d element ih =>
    cases v with
    | list vs => exact .list ih vs
    | _ => exact hleaf rfl

namespace Entry.Marks

variable {shape : Shape} {c : Cursor} {walk : Walk} {noted : List Entry}

theorem path_eq {mark : Path × Landmark} {e : Entry} (h : e.Marks shape c mark)
    (htracks : c.journal.tracksPath = true) (hpath : c.path = []) : e.path = some mark.1 := by
  rw [h.path, if_pos htracks, hpath]
  rfl

theorem pathText?_eq {mark : Path × Landmark} {e : Entry} (h : e.Marks shape c mark)
    (htracks : c.journal.tracksPath = true) (hpath : c.path = []) :
    e.pathText? = some ('$' :: mark.1.brackets) :=
  Entry.pathText?_eq_iff.2 (h.path_eq htracks hpath)

variable (h : List.Forall₂ (Entry.Marks shape c) walk noted)
variable (htracks : c.journal.tracksPath = true) (hpath : c.path = [])
include h htracks hpath

theorem forall₂_elements :
    List.Forall₂ (fun x e ↦ e.pathText? = some ('$' :: x.1.brackets) ∧
        (Landmark.element x.2.1 x.2.2).StandsAt shape c x.1 e.position)
      (Walk.elements walk) (noted.filter (·.event = .listElement)) := by
  induction h with
  | nil => exact .nil
  | @cons mark e walk noted hmark _ ih =>
    obtain ⟨p, m⟩ := mark
    have hevent := hmark.event
    cases m with
    | element inner v =>
      rw [List.filter_cons_of_pos (by rw [hevent]; rfl)]
      exact .cons ⟨hmark.pathText?_eq htracks hpath, hmark.place⟩ ih
    | _ =>
      rw [List.filter_cons_of_neg (by simp [hevent, Landmark.event])]
      exact ih

theorem events_onPath (p : Path) :
    (noted.filter (·.pathText? = some ('$' :: p.brackets))).map Entry.event =
      (Walk.onPath p walk).map Landmark.event := by
  simp only [Entry.pathText?_eq_iff]
  induction h with
  | nil => rfl
  | @cons mark e walk noted hmark _ ih =>
    have hshown := hmark.path_eq htracks hpath
    rw [Walk.onPath] at ih ⊢
    rw [List.filter_cons, hshown, List.filterMap_cons]
    by_cases hp : mark.1 = p
    · simpa [hp, hmark.event] using ih
    · simpa [hp] using ih

end Entry.Marks

/-- The journal of a reading is the post-order walk through its value, and each entry shows the text
of its path. Each path shows the separators of the list there, or the number or the word, and then
the element itself. -/
theorem journal_walks_in_post_order {shape : Shape} (h : shape.IsPlain) {c c' : Cursor} {v : Value}
    (hon : c.journal.enabled = true) (htracks : c.journal.tracksPath = true) (hpath : c.path = [])
    (hread : shape.read c = .ok v c') :
    ∃ noted, c'.journal.entries = c.journal.entries ++ noted ∧
      List.Forall₂ (fun mark e ↦ e.pathText? = some ('$' :: mark.1.brackets) ∧
          e.Marks shape c mark)
        (shape.walk c.delimiters v) noted ∧
      (∃ elements : List (Path × Shape × Value),
        elements.Pairwise (fun x y ↦ Path.Precedes x.1 y.1) ∧
        (∀ p inner w, (p, inner, w) ∈ elements ↔ p ≠ [] ∧ shape.at? v p = some (inner, w)) ∧
        List.Forall₂ (fun x e ↦ e.pathText? = some ('$' :: x.1.brackets) ∧
            (Landmark.element x.2.1 x.2.2).StandsAt shape c x.1 e.position)
          elements (noted.filter (·.event = .listElement))) ∧
      ∀ p : Path, (noted.filter (·.pathText? = some ('$' :: p.brackets))).map Entry.event =
        (shape.landmarksAt c.delimiters v p).map Landmark.event := by
  obtain ⟨noted, hnoted, hall⟩ := Shape.read_notes h hread
  rw [if_pos hon] at hall
  refine ⟨noted, hnoted, ?_, ⟨Walk.elements (shape.walk c.delimiters v), ?_, ?_, ?_⟩, ?_⟩
  · exact hall.imp fun mark e hmark ↦ ⟨hmark.pathText?_eq htracks hpath, hmark⟩
  · exact (Shape.ordered_walk c.delimiters shape v).pairwise
  · exact fun p inner w ↦ Shape.mem_elements_walk
  · exact Entry.Marks.forall₂_elements hall htracks hpath
  · intro p
    rw [Entry.Marks.events_onPath hall htracks hpath, Shape.onPath_walk]

theorem journal_walks_in_post_order_rows :
    ∃ c' noted,
      (Shape.listWith ⟨';', ' '⟩ (.list (.integer .int64))).read
        (.ofText { logging := true, listPaths := true } ['1', ',', '2', ';', ' ', '3']) =
          .ok (.list [.list [.integer 1, .integer 2], .list [.integer 3]]) c' ∧
      c'.journal.entries = noted ∧ noted.map Entry.position = [0, 0, 1, 2, 2, 0, 3, 5, 5, 5] ∧
      (noted.filter (·.event = .listElement)).map Entry.pathText? =
        [some "$[0][0]".toList, some "$[0][1]".toList, some "$[0]".toList,
          some "$[1][0]".toList, some "$[1]".toList] ∧
      (noted.filter (·.event = .literal)).map Entry.pathText? =
        [some "$[0]".toList, some "$".toList] ∧
      (noted.filter (·.pathText? = some "$[0]".toList)).map Entry.event =
        [.literal, .listElement] := by
  obtain ⟨c', hread, hpositions, helements, hseparators⟩ : ∃ c',
      (Shape.listWith ⟨';', ' '⟩ (.list (.integer .int64))).read
        (.ofText { logging := true, listPaths := true } ['1', ',', '2', ';', ' ', '3']) =
          .ok (.list [.list [.integer 1, .integer 2], .list [.integer 3]]) c' ∧
      c'.journal.entries.map Entry.position = [0, 0, 1, 2, 2, 0, 3, 5, 5, 5] ∧
      (c'.journal.entries.filter (·.event = .listElement)).map Entry.pathText? =
        [some "$[0][0]".toList, some "$[0][1]".toList, some "$[0]".toList,
          some "$[1][0]".toList, some "$[1]".toList] ∧
      (c'.journal.entries.filter (·.event = .literal)).map Entry.pathText? =
        [some "$[0]".toList, some "$".toList] := ⟨_, rfl, rfl, rfl, rfl⟩
  have hplain : (Shape.listWith ⟨';', ' '⟩ (.list (.integer .int64))).IsPlain := trivial
  obtain ⟨noted, hnoted, -, -, hevents⟩ := journal_walks_in_post_order hplain rfl rfl rfl hread
  have hentries : c'.journal.entries = noted := hnoted
  rw [hentries] at hpositions helements hseparators
  exact ⟨c', noted, hread, hentries, hpositions, helements, hseparators, hevents [0]⟩

end TextCursor
