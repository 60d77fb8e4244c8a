import Mathlib.Data.List.Nodup
import Mathlib.Logic.Function.Basic

/-!
Contract: circular doubly linked lists in a store of links.

Owns the two pointers of every node, stretches of nodes whose neighbours point
at each other, rings through a head, insertion behind the head and removal of a
node as pointer writes, and walks that only follow `next`.

Does not own what else a node carries, where it lives or who walks it.
-/

set_option autoImplicit false

namespace UsacSyscalls.Foundation

/-- The two pointers of every node. -/
structure Links (ν : Type) where
  next : ν → ν
  prev : ν → ν

namespace Links

variable {ν : Type}

/-! ### Stretches -/

/-- From `start` over `nodes` to `stop`, neighbours point at each other. -/
def Linked (links : Links ν) : ν → List ν → ν → Prop
  | start, [], stop => links.next start = stop ∧ links.prev stop = start
  | start, node :: rest, stop =>
      (links.next start = node ∧ links.prev node = start) ∧ Linked links node rest stop

variable {links others : Links ν} {start node stop : ν} {before nodes after : List ν}

theorem linked_append :
    Linked links start (before ++ node :: after) stop ↔
      Linked links start before node ∧ Linked links node after stop := by
  induction before generalizing start with
  | nil => rfl
  | cons first rest inductionHypothesis =>
      simp only [List.cons_append, Linked, inductionHypothesis, and_assoc]

/-- A stretch only depends on the pointers along it. -/
theorem Linked.congr (linked : Linked links start nodes stop)
    (nextSame : ∀ node ∈ start :: nodes, others.next node = links.next node)
    (prevSame : ∀ node ∈ nodes ++ [stop], others.prev node = links.prev node) :
    Linked others start nodes stop := by
  induction nodes generalizing start with
  | nil =>
      obtain ⟨next, prev⟩ := linked
      exact ⟨(nextSame start (by simp)).trans next, (prevSame stop (by simp)).trans prev⟩
  | cons first rest inductionHypothesis =>
      obtain ⟨⟨next, prev⟩, linkedRest⟩ := linked
      refine ⟨⟨(nextSame start (by simp)).trans next, (prevSame first (by simp)).trans prev⟩, ?_⟩
      apply inductionHypothesis linkedRest
      · intro node member
        exact nextSame node (List.mem_cons_of_mem _ member)
      · intro node member
        exact prevSame node (List.mem_cons_of_mem _ member)

theorem Linked.next_mem (linked : Linked links start nodes stop) :
    links.next start ∈ nodes ++ [stop] := by
  cases nodes with
  | nil => simp [linked.1]
  | cons first rest => simp [linked.1.1]

theorem Linked.prev_mem (linked : Linked links start nodes stop) :
    links.prev stop ∈ start :: nodes := by
  induction nodes generalizing start with
  | nil => simp [linked.2]
  | cons first rest inductionHypothesis =>
      exact List.mem_cons_of_mem _ (inductionHypothesis linked.2)

/-! ### Pointer writes -/

variable [DecidableEq ν]

def setNext (links : Links ν) (node target : ν) : Links ν :=
  { links with next := Function.update links.next node target }

def setPrev (links : Links ν) (node target : ν) : Links ν :=
  { links with prev := Function.update links.prev node target }

variable {target other : ν}

@[simp] theorem setNext_next_self : (links.setNext node target).next node = target :=
  Function.update_self ..

@[simp] theorem setNext_next_of_ne (different : other ≠ node) :
    (links.setNext node target).next other = links.next other :=
  Function.update_of_ne different ..

@[simp] theorem setNext_prev : (links.setNext node target).prev = links.prev := rfl

@[simp] theorem setPrev_prev_self : (links.setPrev node target).prev node = target :=
  Function.update_self ..

@[simp] theorem setPrev_prev_of_ne (different : other ≠ node) :
    (links.setPrev node target).prev other = links.prev other :=
  Function.update_of_ne different ..

@[simp] theorem setPrev_next : (links.setPrev node target).next = links.next := rfl

/-- Put `new` behind `head`, in four writes. -/
def insert (links : Links ν) (head new : ν) : Links ν :=
  let next := links.next head
  (((links.setPrev next new).setNext new next).setPrev new head).setNext head new

/-- Make the neighbours of `node` point at each other, in two writes. -/
def bypass (links : Links ν) (node : ν) : Links ν :=
  let prev := links.prev node
  let next := links.next node
  (links.setPrev next prev).setNext prev next

theorem insert_next_of_ne {head new : ν} (notHead : other ≠ head) (notNew : other ≠ new) :
    (links.insert head new).next other = links.next other := by
  simp [insert, notHead, notNew]

theorem insert_prev_of_ne {head new : ν} (notNext : other ≠ links.next head)
    (notNew : other ≠ new) : (links.insert head new).prev other = links.prev other := by
  simp [insert, notNext, notNew]

theorem bypass_next_of_ne (notBefore : other ≠ links.prev node) :
    (links.bypass node).next other = links.next other := by
  simp [bypass, notBefore]

theorem bypass_prev_of_ne (notBehind : other ≠ links.next node) :
    (links.bypass node).prev other = links.prev other := by
  simp [bypass, notBehind]

theorem Linked.bypass (first : Linked links start before node)
    (second : Linked links node after stop)
    (distinct : (start :: (before ++ node :: after)).Nodup)
    (outside : stop ∉ before ++ node :: after) :
    Linked (links.bypass node) start (before ++ after) stop := by
  induction before generalizing start with
  | nil =>
      obtain ⟨next, prev⟩ := first
      have startOutside : start ∉ after := by
        simp only [List.nil_append, List.nodup_cons, List.mem_cons, not_or] at distinct
        exact distinct.1.2
      cases after with
      | nil =>
          obtain ⟨last, _⟩ := second
          simp [Links.bypass, Linked, prev, last]
      | cons neighbour rest =>
          obtain ⟨⟨last, _⟩, linkedRest⟩ := second
          refine ⟨by simp [Links.bypass, prev, last], ?_⟩
          apply linkedRest.congr
          · intro other member
            have different : other ≠ start := fun same => startOutside (same ▸ member)
            exact bypass_next_of_ne (prev ▸ different)
          · intro other member
            have different : other ≠ neighbour := by
              rintro rfl
              rcases List.mem_append.mp member with inRest | isStop
              · simp only [List.nil_append, List.nodup_cons] at distinct
                exact distinct.2.2.1 inRest
              · exact outside (by simp [List.mem_singleton.mp isStop])
            exact bypass_prev_of_ne (last ▸ different)
  | cons neighbour rest inductionHypothesis =>
      obtain ⟨⟨next, prev⟩, linkedRest⟩ := first
      have distinctRest := (List.nodup_cons.mp distinct).2
      have prevInside := linkedRest.prev_mem
      have nextInside := second.next_mem
      have startDifferent : start ≠ links.prev node := by
        intro same
        apply (List.nodup_cons.mp distinct).1
        rw [same]
        exact List.mem_append_left _ prevInside
      have neighbourDifferent : neighbour ≠ links.next node := by
        intro same
        rcases List.mem_append.mp nextInside with inAfter | isStop
        · apply (List.nodup_cons.mp distinctRest).1
          rw [same]
          exact List.mem_append_right _ (List.mem_cons_of_mem _ inAfter)
        · apply outside
          rw [← List.mem_singleton.mp isStop, ← same]
          exact List.mem_cons_self
      refine ⟨⟨?_, ?_⟩, ?_⟩
      · rw [bypass_next_of_ne startDifferent, next]
      · rw [bypass_prev_of_ne neighbourDifferent, prev]
      · apply inductionHypothesis linkedRest distinctRest
        intro member
        exact outside (List.mem_cons_of_mem _ member)

/-! ### Rings -/

/-- A closed stretch through `head` without repetition. -/
structure Ring (links : Links ν) (head : ν) (nodes : List ν) : Prop where
  linked : Linked links head nodes head
  distinct : (head :: nodes).Nodup

variable {head new : ν}

omit [DecidableEq ν] in
theorem Ring.head_notMem (ring : Ring links head nodes) : head ∉ nodes :=
  (List.nodup_cons.mp ring.distinct).1

omit [DecidableEq ν] in
theorem Ring.next_mem (ring : Ring links head nodes) (member : node ∈ head :: nodes) :
    links.next node ∈ head :: nodes := by
  have shift : ∀ {other}, other ∈ nodes ++ [head] → other ∈ head :: nodes := by
    intro other inside
    simpa [or_comm] using inside
  rcases List.mem_cons.mp member with rfl | inNodes
  · exact shift ring.linked.next_mem
  · obtain ⟨before, after, rfl⟩ := List.append_of_mem inNodes
    have inside := (linked_append.mp ring.linked).2.next_mem
    apply shift
    simp only [List.mem_append, List.mem_cons] at inside ⊢
    tauto

omit [DecidableEq ν] in
theorem Ring.prev_mem (ring : Ring links head nodes) (member : node ∈ head :: nodes) :
    links.prev node ∈ head :: nodes := by
  rcases List.mem_cons.mp member with rfl | inNodes
  · exact ring.linked.prev_mem
  · obtain ⟨before, after, rfl⟩ := List.append_of_mem inNodes
    have inside := (linked_append.mp ring.linked).1.prev_mem
    simp only [List.mem_append, List.mem_cons] at inside ⊢
    tauto

omit [DecidableEq ν] in
theorem Ring.congr (ring : Ring links head nodes)
    (nextSame : ∀ node ∈ head :: nodes, others.next node = links.next node)
    (prevSame : ∀ node ∈ head :: nodes, others.prev node = links.prev node) :
    Ring others head nodes := by
  refine ⟨ring.linked.congr nextSame ?_, ring.distinct⟩
  intro node member
  apply prevSame
  simpa [or_comm] using member

theorem Ring.insert (ring : Ring links head nodes) (fresh : new ∉ head :: nodes) :
    Ring (links.insert head new) head (new :: nodes) := by
  have notHead : new ≠ head := fun same => fresh (same ▸ List.mem_cons_self)
  have notNode : ∀ node ∈ nodes, node ≠ new := by
    rintro node member rfl
    exact fresh (List.mem_cons_of_mem _ member)
  constructor
  case distinct =>
    rw [(List.Perm.swap new head nodes).nodup_iff, List.nodup_cons]
    exact ⟨fresh, ring.distinct⟩
  case linked =>
    have linked := ring.linked
    cases nodes with
    | nil =>
        obtain ⟨next, _⟩ := linked
        simp [Linked, Links.insert, next, notHead, notHead.symm]
    | cons first rest =>
        obtain ⟨⟨next, _⟩, linkedRest⟩ := linked
        have firstNew := notNode first List.mem_cons_self
        refine ⟨by simp [Links.insert], ?_, ?_⟩
        · simp [Links.insert, next, notHead, firstNew]
        · apply linkedRest.congr
          · intro node member
            apply insert_next_of_ne
            · rintro rfl
              exact ring.head_notMem member
            · exact notNode node member
          · intro node member
            have notFirst : node ≠ first := by
              rintro rfl
              rcases List.mem_append.mp member with inRest | isHead
              · exact (List.nodup_cons.mp (List.nodup_cons.mp ring.distinct).2).1 inRest
              · apply ring.head_notMem
                rw [← List.mem_singleton.mp isHead]
                exact List.mem_cons_self
            apply insert_prev_of_ne
            · rwa [next]
            · rcases List.mem_append.mp member with inRest | isHead
              · exact notNode node (List.mem_cons_of_mem _ inRest)
              · rw [List.mem_singleton.mp isHead]
                exact notHead.symm

theorem Ring.bypass (ring : Ring links head (before ++ node :: after)) :
    Ring (links.bypass node) head (before ++ after) := by
  obtain ⟨first, second⟩ := linked_append.mp ring.linked
  refine ⟨first.bypass second ring.distinct ring.head_notMem, ?_⟩
  have shorter : (before ++ after).Sublist (before ++ node :: after) :=
    (List.Sublist.refl before).append (List.sublist_cons_self node after)
  exact List.Nodup.sublist (shorter.cons_cons head) ring.distinct

end Links

/-! ### Walks -/

section Walks

variable {ν : Type} {next : ν → ν} {stop : ν}

/-- Following `next` from `position` meets `nodes`, in order, before `stop`. -/
def Walk (next : ν → ν) (stop : ν) : ν → List ν → Prop
  | position, [] => position = stop
  | position, node :: rest => position = node ∧ node ≠ stop ∧ Walk next stop (next node) rest

/-- A walk meets what it meets. -/
theorem Walk.unique {position : ν} {nodes others : List ν} (walk : Walk next stop position nodes)
    (other : Walk next stop position others) : nodes = others := by
  induction nodes generalizing position others with
  | nil =>
      cases others with
      | nil => rfl
      | cons node rest => exact absurd (other.1.symm.trans walk) other.2.1
  | cons node rest inductionHypothesis =>
      cases others with
      | nil => exact absurd (walk.1.symm.trans other) walk.2.1
      | cons node' rest' =>
          obtain ⟨here, _, ahead⟩ := walk
          obtain ⟨there, _, otherAhead⟩ := other
          subst here there
          rw [inductionHypothesis ahead otherAhead]

theorem Walk.from_mem {position node : ν} {before after : List ν}
    (walk : Walk next stop position (before ++ node :: after)) :
    Walk next stop node (node :: after) := by
  induction before generalizing position with
  | nil => exact ⟨rfl, walk.2⟩
  | cons first rest inductionHypothesis => exact inductionHypothesis walk.2.2

/-- A walk that ends meets no node twice. -/
theorem Walk.nodup {position : ν} {nodes : List ν} (walk : Walk next stop position nodes) :
    nodes.Nodup := by
  induction nodes generalizing position with
  | nil => exact List.nodup_nil
  | cons node rest inductionHypothesis =>
      refine List.nodup_cons.mpr ⟨?_, inductionHypothesis walk.2.2⟩
      intro again
      obtain ⟨before, after, rfl⟩ := List.append_of_mem again
      have here : Walk next stop node (node :: (before ++ node :: after)) := ⟨rfl, walk.2⟩
      have there : Walk next stop node (node :: after) := here.2.2.from_mem
      have same := congrArg List.length (here.unique there)
      simp at same
      omega

/-- A walk only depends on the pointers of the nodes it meets. -/
theorem Walk.congr {changed : ν → ν} {position : ν} {nodes : List ν}
    (walk : Walk next stop position nodes) (same : ∀ node ∈ nodes, changed node = next node) :
    Walk changed stop position nodes := by
  induction nodes generalizing position with
  | nil => exact walk
  | cons node rest inductionHypothesis =>
      obtain ⟨here, notStop, ahead⟩ := walk
      refine ⟨here, notStop, ?_⟩
      rw [same node List.mem_cons_self]
      apply inductionHypothesis ahead
      intro other member
      exact same other (List.mem_cons_of_mem _ member)

theorem Links.Linked.walk {links : Links ν} {start : ν} {nodes : List ν}
    (linked : links.Linked start nodes stop) (outside : stop ∉ nodes) :
    Walk links.next stop (links.next start) nodes := by
  induction nodes generalizing start with
  | nil => exact linked.1
  | cons node rest inductionHypothesis =>
      obtain ⟨⟨next, _⟩, linkedRest⟩ := linked
      refine ⟨next, ?_, ?_⟩
      · rintro rfl
        exact outside List.mem_cons_self
      · apply inductionHypothesis linkedRest
        intro member
        exact outside (List.mem_cons_of_mem _ member)

/-- The nodes of a ring are what a walk from its head meets. -/
theorem Links.Ring.walk {links : Links ν} {head : ν} {nodes : List ν}
    (ring : links.Ring head nodes) : Walk links.next head (links.next head) nodes :=
  ring.linked.walk ring.head_notMem

end Walks

end UsacSyscalls.Foundation
