import Mathlib.Data.List.Basic
import Mathlib.Order.Lattice
import Mathlib.Tactic.Common

/-!
# Trees and contexts

Finitely branching trees with a value at every node (`RoseTree`), their nodes in
preorder (`RoseTree.nodes`), and the properties of a tree that relate every node to
its children (`RoseTree.Everywhere`).

A node is found by a predicate on values (`RoseTree.find?`), and the subtree at it
replaced (`RoseTree.replace`). To reason about a subtree in its place, a tree is
seen as a *context* filled with the subtree (`RoseTree.fill`): the context is the
list of the nodes above it, innermost first, each with the subtrees to the left
and to the right of the way down (`RoseTree.Frame`).

* Every node of a tree is at the root of a subtree filling some context
  (`exists_fill`).
* If the predicate is true of this node only, the subtree is what is found
  (`find?_fill`), and replacing it fills the context anew (`replace_fill`).
* A property holds everywhere in a filled context if it holds everywhere in the
  filler and around it, which depends on the value of the filler only
  (`everywhere_fill`).
-/

/-- A finitely branching tree. -/
inductive RoseTree (α : Type*)
  | node (val : α) (children : List (RoseTree α))

namespace RoseTree

variable {α β : Type*}

/-- The value at the root. -/
def val : RoseTree α → α
  | node a _ => a

/-- The subtrees below the root. -/
def children : RoseTree α → List (RoseTree α)
  | node _ ts => ts

@[simp] theorem val_node (a : α) (ts : List (RoseTree α)) : (node a ts).val = a := rfl

@[simp] theorem children_node (a : α) (ts : List (RoseTree α)) : (node a ts).children = ts := rfl

@[simp] theorem node_val_children (t : RoseTree α) : node t.val t.children = t := by
  cases t; rfl

/-- Induction on a tree: a node may assume the property of its children. -/
@[elab_as_elim, induction_eliminator]
theorem induct {motive : RoseTree α → Prop}
    (node : ∀ a ts, (∀ t ∈ ts, motive t) → motive (node a ts)) (t : RoseTree α) : motive t :=
  RoseTree.rec (motive_2 := fun ts => ∀ t ∈ ts, motive t) node (fun _ h => absurd h List.not_mem_nil)
    (fun _ _ ht hts _ h => (List.mem_cons.1 h).elim (fun e => e ▸ ht) (hts _)) t

/-! ## Folds -/

mutual

/-- The values of a tree in preorder. -/
def nodes : RoseTree α → List α
  | node a ts => a :: nodesList ts

/-- The values of a list of trees, each in preorder. -/
def nodesList : List (RoseTree α) → List α
  | [] => []
  | t :: ts => t.nodes ++ nodesList ts

end

mutual

/-- The number of levels of a tree. -/
def height : RoseTree α → ℕ
  | node _ ts => heightList ts + 1

/-- The number of levels of the tallest of a list of trees. -/
def heightList : List (RoseTree α) → ℕ
  | [] => 0
  | t :: ts => max t.height (heightList ts)

end

mutual

/-- Apply a function to every value. -/
def map (f : α → β) : RoseTree α → RoseTree β
  | node a ts => node (f a) (mapList f ts)

/-- Apply a function to every value of a list of trees. -/
def mapList (f : α → β) : List (RoseTree α) → List (RoseTree β)
  | [] => []
  | t :: ts => t.map f :: mapList f ts

end

theorem nodesList_eq (ts : List (RoseTree α)) : nodesList ts = ts.flatMap nodes := by
  induction ts with
  | nil => rfl
  | cons t ts ih => rw [nodesList, ih, List.flatMap_cons]

@[simp] theorem nodes_node (a : α) (ts : List (RoseTree α)) :
    (node a ts).nodes = a :: ts.flatMap nodes := by
  rw [nodes, nodesList_eq]

theorem mapList_eq (f : α → β) (ts : List (RoseTree α)) : mapList f ts = ts.map (map f) := by
  induction ts with
  | nil => rfl
  | cons t ts ih => rw [mapList, ih, List.map_cons]

@[simp] theorem map_node (f : α → β) (a : α) (ts : List (RoseTree α)) :
    (node a ts).map f = node (f a) (ts.map (map f)) := by
  rw [map, mapList_eq]

@[simp] theorem val_map (f : α → β) (t : RoseTree α) : (t.map f).val = f t.val := by
  cases t; simp

@[simp] theorem children_map (f : α → β) (t : RoseTree α) :
    (t.map f).children = t.children.map (map f) := by
  cases t; simp

theorem nodes_map (f : α → β) (t : RoseTree α) : (t.map f).nodes = t.nodes.map f := by
  induction t with
  | node a ts ih =>
    simp only [map_node, nodes_node, List.map_cons, List.flatMap_map, List.map_flatMap]
    congr 1
    exact List.flatMap_congr ih

theorem val_mem_nodes (t : RoseTree α) : t.val ∈ t.nodes := by
  cases t; simp

theorem nodes_eq_cons (t : RoseTree α) : t.nodes = t.val :: t.children.flatMap nodes := by
  cases t; simp

theorem nodes_subset_of_mem {t s : RoseTree α} (h : s ∈ t.children) : s.nodes ⊆ t.nodes := by
  rw [nodes_eq_cons t]
  exact fun a ha => List.mem_cons_of_mem _ (List.mem_flatMap.2 ⟨s, h, ha⟩)

theorem height_le_of_mem {ts : List (RoseTree α)} {t : RoseTree α} (h : t ∈ ts) :
    t.height ≤ heightList ts := by
  induction ts with
  | nil => exact absurd h List.not_mem_nil
  | cons s ts ih =>
    rw [heightList]
    rcases List.mem_cons.1 h with rfl | h
    · exact le_max_left _ _
    · exact (ih h).trans (le_max_right _ _)

theorem height_node_le {a : α} {ts : List (RoseTree α)} {n : ℕ} :
    (node a ts).height ≤ n + 1 ↔ ∀ t ∈ ts, t.height ≤ n := by
  rw [height, Nat.add_le_add_iff_right]
  refine ⟨fun h t ht => (height_le_of_mem ht).trans h, fun h => ?_⟩
  induction ts with
  | nil => exact Nat.zero_le n
  | cons t ts ih =>
    rw [heightList]
    exact max_le (h t List.mem_cons_self) (ih fun s hs => h s (List.mem_cons_of_mem _ hs))

/-- Every tree has a level. -/
theorem height_pos (t : RoseTree α) : 0 < t.height := by
  cases t; rw [height]; exact Nat.succ_pos _

/-- Applying a function to the values keeps the levels. -/
theorem height_map (f : α → β) (t : RoseTree α) : (t.map f).height = t.height := by
  have h : ∀ n, (t.map f).height ≤ n ↔ t.height ≤ n := by
    induction t with
    | node a ts ih =>
      intro n
      cases n with
      | zero => simp [map_node, height]
      | succ n =>
        rw [map_node, height_node_le, height_node_le]
        constructor
        · exact fun h t ht => (ih t ht n).1 (h _ (List.mem_map_of_mem ht))
        · intro h s hs
          obtain ⟨t, ht, rfl⟩ := List.mem_map.1 hs
          exact (ih t ht n).2 (h t ht)
  exact le_antisymm ((h _).2 le_rfl) ((h _).1 le_rfl)

/-! ## Properties of every node -/

mutual

/-- `P` relates every node to its children. -/
def Everywhere (P : α → List α → Prop) : RoseTree α → Prop
  | node a ts => P a (ts.map val) ∧ EverywhereList P ts

/-- `P` relates every node of a list of trees to its children. -/
def EverywhereList (P : α → List α → Prop) : List (RoseTree α) → Prop
  | [] => True
  | t :: ts => t.Everywhere P ∧ EverywhereList P ts

end

variable {P Q : α → List α → Prop}

theorem everywhereList_iff {ts : List (RoseTree α)} :
    EverywhereList P ts ↔ ∀ t ∈ ts, t.Everywhere P := by
  induction ts with
  | nil => simp [EverywhereList]
  | cons t ts ih => rw [EverywhereList, ih, List.forall_mem_cons]

@[simp] theorem everywhere_node {a : α} {ts : List (RoseTree α)} :
    (node a ts).Everywhere P ↔ P a (ts.map val) ∧ ∀ t ∈ ts, t.Everywhere P := by
  rw [Everywhere, everywhereList_iff]

theorem Everywhere.here {t : RoseTree α} (h : t.Everywhere P) : P t.val (t.children.map val) := by
  cases t; exact (everywhere_node.1 h).1

theorem Everywhere.below {t s : RoseTree α} (h : t.Everywhere P) (hs : s ∈ t.children) :
    s.Everywhere P := by
  cases t; exact (everywhere_node.1 h).2 s hs

theorem Everywhere.mono (hPQ : ∀ a bs, P a bs → Q a bs) {t : RoseTree α} (h : t.Everywhere P) :
    t.Everywhere Q := by
  induction t with
  | node a ts ih =>
    rw [everywhere_node] at h ⊢
    exact ⟨hPQ _ _ h.1, fun t ht => ih t ht (h.2 t ht)⟩

/-- A property of the mapped values is the property of the values mapped. -/
theorem everywhere_map {f : β → α} {t : RoseTree β} :
    (t.map f).Everywhere P ↔ t.Everywhere fun a bs => P (f a) (bs.map f) := by
  induction t with
  | node a ts ih =>
    simp only [map_node, everywhere_node, List.map_map, List.forall_mem_map]
    rw [show val ∘ map f = f ∘ val from funext fun t => val_map f t]
    exact and_congr_right fun _ => forall₂_congr ih

/-- Trees that agree under `f` have the same properties, if these do not tell a value
    from its image under `f`. -/
theorem everywhere_congr {f : α → α} (hP : ∀ a bs, P (f a) (bs.map f) ↔ P a bs) {t s : RoseTree α}
    (h : t.map f = s.map f) : t.Everywhere P ↔ s.Everywhere P := by
  have hf : ∀ u : RoseTree α, (u.map f).Everywhere P ↔ u.Everywhere P := fun u => by
    rw [everywhere_map]
    exact ⟨fun hu => hu.mono fun a bs => (hP a bs).1, fun hu => hu.mono fun a bs => (hP a bs).2⟩
  rw [← hf t, ← hf s, h]

/-- Two properties hold everywhere iff their conjunction does. -/
theorem everywhere_and {t : RoseTree α} :
    (t.Everywhere fun a bs => P a bs ∧ Q a bs) ↔ t.Everywhere P ∧ t.Everywhere Q := by
  refine ⟨fun h => ⟨h.mono fun _ _ h => h.1, h.mono fun _ _ h => h.2⟩, fun h => ?_⟩
  induction t with
  | node a ts ih =>
    simp only [everywhere_node] at h ⊢
    exact ⟨⟨h.1.1, h.2.1⟩, fun t ht => ih t ht ⟨h.1.2 t ht, h.2.2 t ht⟩⟩

/-- A property of the values alone holds everywhere iff it holds of every value. -/
theorem everywhere_iff_forall_mem {p : α → Prop} {t : RoseTree α} :
    (t.Everywhere fun a _ => p a) ↔ ∀ a ∈ t.nodes, p a := by
  induction t with
  | node a ts ih =>
    simp only [everywhere_node, nodes_node, List.forall_mem_cons, List.mem_flatMap]
    rw [and_congr_right_iff]
    intro _
    exact ⟨fun h b ⟨t, ht, hb⟩ => (ih t ht).1 (h t ht) b hb,
      fun h t ht => (ih t ht).2 fun b hb => h b ⟨t, ht, hb⟩⟩

/-! ## Finding and replacing -/

mutual

/-- The subtree at the first node satisfying `p`. -/
def find? (p : α → Bool) : RoseTree α → Option (RoseTree α)
  | node a ts => if p a then some (node a ts) else findList? p ts

/-- The subtree at the first node satisfying `p` in a list of trees. -/
def findList? (p : α → Bool) : List (RoseTree α) → Option (RoseTree α)
  | [] => none
  | t :: ts => (t.find? p).or (findList? p ts)

end

mutual

/-- Replace the subtrees at the topmost nodes satisfying `p`. -/
def replace (p : α → Bool) (s : RoseTree α) : RoseTree α → RoseTree α
  | node a ts => if p a then s else node a (replaceList p s ts)

/-- Replace the subtrees at the topmost nodes satisfying `p` in a list of trees. -/
def replaceList (p : α → Bool) (s : RoseTree α) : List (RoseTree α) → List (RoseTree α)
  | [] => []
  | t :: ts => replace p s t :: replaceList p s ts

end

variable {p : α → Bool}

theorem find?_of_val {t : RoseTree α} (h : p t.val = true) : t.find? p = some t := by
  cases t; exact if_pos h

theorem replace_of_val {s t : RoseTree α} (h : p t.val = true) : replace p s t = s := by
  cases t; exact if_pos h

theorem find?_eq_none {t : RoseTree α} (h : ∀ a ∈ t.nodes, p a = false) : t.find? p = none := by
  induction t with
  | node a ts ih =>
    simp only [nodes_node, List.forall_mem_cons, List.mem_flatMap] at h
    rw [find?, h.1, if_neg (by simp)]
    replace ih : ∀ t ∈ ts, t.find? p = none := fun t ht => ih t ht fun b hb => h.2 b ⟨t, ht, hb⟩
    clear h
    induction ts with
    | nil => rfl
    | cons t ts ih' =>
      rw [findList?, ih t List.mem_cons_self, Option.none_or]
      exact ih' fun s hs => ih s (List.mem_cons_of_mem _ hs)

theorem findList?_append (ts us : List (RoseTree α)) :
    findList? p (ts ++ us) = (findList? p ts).or (findList? p us) := by
  induction ts with
  | nil => rfl
  | cons t ts ih => rw [List.cons_append, findList?, ih, findList?, Option.or_assoc]

theorem findList?_eq_none {ts : List (RoseTree α)} (h : ∀ t ∈ ts, ∀ a ∈ t.nodes, p a = false) :
    findList? p ts = none := by
  induction ts with
  | nil => rfl
  | cons t ts ih =>
    rw [findList?, find?_eq_none (h t List.mem_cons_self), Option.none_or]
    exact ih fun s hs => h s (List.mem_cons_of_mem _ hs)

theorem replaceList_eq (s : RoseTree α) (ts : List (RoseTree α)) :
    replaceList p s ts = ts.map (replace p s) := by
  induction ts with
  | nil => rfl
  | cons t ts ih => rw [replaceList, ih, List.map_cons]

theorem replace_eq_self {s t : RoseTree α} (h : ∀ a ∈ t.nodes, p a = false) : replace p s t = t := by
  induction t with
  | node a ts ih =>
    simp only [nodes_node, List.forall_mem_cons, List.mem_flatMap] at h
    rw [replace, h.1, if_neg (by simp), replaceList_eq, List.map_congr_left fun t ht =>
      ih t ht fun b hb => h.2 b ⟨t, ht, hb⟩, List.map_id']

/-- What is found satisfies the predicate, and is in the tree. -/
theorem find?_eq_some {t s : RoseTree α} (h : t.find? p = some s) :
    p s.val = true ∧ s.val ∈ t.nodes := by
  induction t with
  | node a ts ih =>
    rw [find?] at h
    split at h
    · next ha => cases h; exact ⟨ha, val_mem_nodes _⟩
    · have : ∃ t ∈ ts, t.find? p = some s := by
        clear ih
        induction ts with
        | nil => simp [findList?] at h
        | cons t ts ih' =>
          rw [findList?, Option.or_eq_some_iff] at h
          rcases h with h | ⟨_, h⟩
          · exact ⟨t, List.mem_cons_self, h⟩
          · obtain ⟨u, hu, hs⟩ := ih' h
            exact ⟨u, List.mem_cons_of_mem _ hu, hs⟩
      obtain ⟨t, ht, hs⟩ := this
      refine ⟨(ih t ht hs).1, ?_⟩
      rw [nodes_node]
      exact List.mem_cons_of_mem _ (List.mem_flatMap.2 ⟨t, ht, (ih t ht hs).2⟩)

/-! ## Contexts -/

/-- A node above a place in a tree: its value, and its children to the left and
    to the right of the way down to the place. -/
structure Frame (α : Type*) where
  val : α
  left : List (RoseTree α)
  right : List (RoseTree α)

/-- The values of the children of a frame, with `v` in the place. -/
def Frame.vals (f : Frame α) (v : α) : List α := f.left.map RoseTree.val ++ v :: f.right.map RoseTree.val

/-- The subtree at a frame, with `t` in the place. -/
def Frame.plug (f : Frame α) (t : RoseTree α) : RoseTree α := node f.val (f.left ++ t :: f.right)

@[simp] theorem Frame.val_plug (f : Frame α) (t : RoseTree α) : (f.plug t).val = f.val := rfl

@[simp] theorem Frame.children_plug (f : Frame α) (t : RoseTree α) :
    (f.plug t).children = f.left ++ t :: f.right := rfl

/-- The tree with `t` in the place described by the frames, innermost first. -/
def fill : List (Frame α) → RoseTree α → RoseTree α
  | [], t => t
  | f :: c, t => fill c (f.plug t)

/-- The values that come before the place in preorder. -/
def before : List (Frame α) → List α
  | [] => []
  | f :: c => before c ++ f.val :: f.left.flatMap nodes

/-- The values that come after the place in preorder. -/
def after : List (Frame α) → List α
  | [] => []
  | f :: c => f.right.flatMap nodes ++ after c

/-- `P` relates the nodes around the place to their children, with `v` in the place. -/
def Around (P : α → List α → Prop) : List (Frame α) → α → Prop
  | [], _ => True
  | f :: c, v => P f.val (f.vals v) ∧ (∀ t ∈ f.left, t.Everywhere P) ∧
      (∀ t ∈ f.right, t.Everywhere P) ∧ Around P c f.val

theorem nodes_plug (f : Frame α) (t : RoseTree α) :
    (f.plug t).nodes = f.val :: f.left.flatMap nodes ++ t.nodes ++ f.right.flatMap nodes := by
  simp [Frame.plug]

theorem nodes_fill (c : List (Frame α)) (t : RoseTree α) :
    (fill c t).nodes = before c ++ t.nodes ++ after c := by
  induction c generalizing t with
  | nil => simp [fill, before, after]
  | cons f c ih => simp [fill, ih, nodes_plug, before, after]

theorem everywhere_fill {c : List (Frame α)} {t : RoseTree α} :
    (fill c t).Everywhere P ↔ t.Everywhere P ∧ Around P c t.val := by
  induction c generalizing t with
  | nil => simp [fill, Around]
  | cons f c ih =>
    rw [fill, ih, Around, Frame.plug, everywhere_node]
    simp only [List.map_append, List.map_cons, List.mem_append, List.mem_cons, val_node, Frame.vals]
    constructor
    · rintro ⟨⟨h, hts⟩, hc⟩
      exact ⟨hts t (.inr (.inl rfl)), h, fun s hs => hts s (.inl hs),
        fun s hs => hts s (.inr (.inr hs)), hc⟩
    · rintro ⟨ht, h, hl, hr, hc⟩
      refine ⟨⟨h, fun s hs => ?_⟩, hc⟩
      rcases hs with hs | rfl | hs
      exacts [hl s hs, ht, hr s hs]

/-- A frame that holds with a value in the place holds with any other that the
    property does not tell from it. -/
theorem Around.congr {c : List (Frame α)} {v w : α} (h : Around P c v)
    (hvw : ∀ a l r, P a (l ++ v :: r) → P a (l ++ w :: r)) : Around P c w := by
  cases c with
  | nil => trivial
  | cons f c => exact ⟨hvw _ _ _ h.1, h.2⟩

/-- A place is below as many levels as it has frames. -/
theorem length_add_height_le (c : List (Frame α)) (t : RoseTree α) :
    c.length + t.height ≤ (fill c t).height := by
  induction c generalizing t with
  | nil => simp [fill]
  | cons f c ih =>
    have h₁ := ih (f.plug t)
    have h₂ : t.height ≤ heightList (f.left ++ t :: f.right) := height_le_of_mem (by simp)
    rw [Frame.plug, height] at h₁
    rw [fill, List.length_cons, Frame.plug]
    omega

/-- Every node is at the root of a subtree in some context. -/
theorem exists_fill {t : RoseTree α} {a : α} (h : a ∈ t.nodes) :
    ∃ (c : List (Frame α)) (ts : List (RoseTree α)), t = fill c (node a ts) := by
  suffices ∀ c' : List (Frame α), ∃ (c : List (Frame α)) (ts : List (RoseTree α)),
      fill c' t = fill c (node a ts) from this []
  induction t with
  | node b ts ih =>
    intro c'
    rw [nodes_node, List.mem_cons, List.mem_flatMap] at h
    rcases h with rfl | ⟨t, ht, h⟩
    · exact ⟨c', ts, rfl⟩
    · obtain ⟨l, r, rfl⟩ := List.append_of_mem ht
      exact ih t ht h (⟨b, l, r⟩ :: c')

theorem find?_fill {c : List (Frame α)} {t : RoseTree α} (hc : ∀ a ∈ before c, p a = false)
    (ht : p t.val = true) : (fill c t).find? p = some t := by
  suffices ∀ s : RoseTree α, s.find? p = some t → (fill c s).find? p = some t from
    this t (find?_of_val ht)
  induction c with
  | nil => exact fun s hs => hs
  | cons f c ih =>
    intro s hs
    simp only [before, List.mem_append, List.mem_cons, List.mem_flatMap] at hc
    refine ih (fun a ha => hc a (.inl ha)) _ ?_
    rw [Frame.plug, find?, hc _ (.inr (.inl rfl)), if_neg (by simp), findList?_append,
      findList?_eq_none fun u hu a ha => hc a (.inr (.inr ⟨u, hu, ha⟩)), Option.none_or, findList?,
      hs, Option.some_or]

theorem replace_fill {c : List (Frame α)} {s t : RoseTree α} (hb : ∀ a ∈ before c, p a = false)
    (ha : ∀ a ∈ after c, p a = false) (ht : p t.val = true) :
    replace p s (fill c t) = fill c s := by
  suffices ∀ u v : RoseTree α, replace p s u = v → replace p s (fill c u) = fill c v from
    this t s (replace_of_val ht)
  induction c with
  | nil => exact fun u v h => h
  | cons f c ih =>
    intro u v huv
    simp only [before, after, List.mem_append, List.mem_cons, List.mem_flatMap] at hb ha
    refine ih (fun a h => hb a (.inl h)) (fun a h => ha a (.inr h)) _ _ ?_
    rw [Frame.plug, replace, hb _ (.inr (.inl rfl)), if_neg (by simp), replaceList_eq,
      List.map_append, List.map_cons, huv,
      List.map_congr_left fun w hw => replace_eq_self fun a h => hb a (.inr (.inr ⟨w, hw, h⟩)),
      List.map_congr_left fun w hw => replace_eq_self fun a h => ha a (.inl ⟨w, hw, h⟩),
      List.map_id', List.map_id']
    rfl

end RoseTree
