import Mathlib.Data.List.Nodup
import Mathlib.Data.List.Perm.Basic
import Ns3.TrafficControl.Transmission.Kernel

/-!
The items of the internal queues and those that have left them.

The items that the derived class has given leave the queue disc in the order in which it gave them:
first those that were sent, then the one of `m_requeued` or the one that `Restart` has in its hand.
-/

namespace Ns3.TrafficControl.Transmission

/-- What is kept of the internal queues, the number of the next item, the numbers of the items that
were dequeued, and these items in the order in which they leave. -/
structure Conserves (fifos : List (List Item)) (nextItem : Nat) (dequeued : List Nat)
    (leaving : List Item) : Prop where
  numbers : dequeued = leaving.map Item.number
  distinct : (fifos.flatten.map Item.number ++ dequeued).Nodup
  made : ∀ number ∈ fifos.flatten.map Item.number ++ dequeued, number < nextItem
  home : ∀ fifo, ∀ item ∈ fifos.getD fifo [], item.fifo = fifo
  ordered : ∀ fifo, ((leaving.filter fun item => item.fifo = fifo).map Item.number ++
    (fifos.getD fifo []).map Item.number).Pairwise (· < ·)

namespace Conserves

variable {fifos : List (List Item)} {nextItem : Nat} {dequeued : List Nat} {leaving : List Item}
  {fifo : Nat} {item : Item} {rest : List Item}

/-- The first item of one list comes first. -/
theorem flatten_perm (head : fifos[fifo]? = some (item :: rest)) :
    fifos.flatten.Perm (item :: (fifos.set fifo rest).flatten) := by
  induction fifos generalizing fifo with
  | nil => simp at head
  | cons list fifos inductionHypothesis =>
      cases fifo with
      | zero =>
          simp only [List.getElem?_cons_zero, Option.some.injEq] at head
          simp [head]
      | succ fifo =>
          have tail := inductionHypothesis (by simpa using head)
          simp only [List.set_cons_succ, List.flatten_cons]
          exact (tail.append_left list).trans List.perm_middle

theorem getD_set (head : fifos[fifo]? = some (item :: rest)) (other : Nat) :
    (fifos.set fifo rest).getD other [] = if other = fifo then rest else fifos.getD other [] := by
  obtain ⟨bound, _⟩ := List.getElem?_eq_some_iff.mp head
  by_cases same : other = fifo
  · subst same
    simp [List.getD_eq_getElem?_getD, bound]
  · simp [List.getD_eq_getElem?_getD, same, List.getElem?_set_ne (Ne.symm same)]

theorem getD_head (head : fifos[fifo]? = some (item :: rest)) :
    fifos.getD fifo [] = item :: rest := by
  simp [List.getD_eq_getElem?_getD, head]

/-- The first item of an internal queue is dropped. -/
theorem drop (conserves : Conserves fifos nextItem dequeued leaving)
    (head : fifos[fifo]? = some (item :: rest)) :
    Conserves (fifos.set fifo rest) nextItem dequeued leaving := by
  have perm := ((flatten_perm head).map Item.number).append_right dequeued
  rw [List.map_cons, List.cons_append] at perm
  refine ⟨conserves.numbers, ?_, ?_, ?_, ?_⟩
  · exact (List.nodup_cons.mp (perm.nodup_iff.mp conserves.distinct)).2
  · intro number mem
    exact conserves.made number (perm.mem_iff.mpr (List.mem_cons_of_mem _ mem))
  · intro other
    rw [getD_set head]
    split
    · next same =>
        intro entry mem
        rw [same]
        exact conserves.home fifo entry (by rw [getD_head head]; exact List.mem_cons_of_mem _ mem)
    · exact conserves.home other
  · intro other
    rw [getD_set head]
    split
    · next same =>
        have ordered := conserves.ordered fifo
        rw [getD_head head] at ordered
        rw [same]
        exact ordered.sublist ((List.Sublist.refl _).append ((List.sublist_cons_self _ _).map _))
    · exact conserves.ordered other

/-- The derived class gives the first item of an internal queue. -/
theorem take (conserves : Conserves fifos nextItem dequeued leaving)
    (head : fifos[fifo]? = some (item :: rest)) :
    Conserves (fifos.set fifo rest) nextItem (dequeued ++ [item.number]) (leaving ++ [item]) := by
  have dropped := conserves.drop head
  have home : item.fifo = fifo :=
    conserves.home fifo item (by rw [getD_head head]; exact List.mem_cons_self)
  have perm : (fifos.flatten.map Item.number ++ dequeued).Perm
      ((fifos.set fifo rest).flatten.map Item.number ++ (dequeued ++ [item.number])) := by
    have cons := ((flatten_perm head).map Item.number).append_right dequeued
    rw [List.map_cons, List.cons_append] at cons
    rw [← List.append_assoc]
    exact cons.trans (List.perm_append_singleton _ _).symm
  refine ⟨by simp [conserves.numbers], perm.nodup_iff.mp conserves.distinct, ?_, dropped.home, ?_⟩
  · intro number mem
    exact conserves.made number (perm.mem_iff.mpr mem)
  · intro other
    by_cases same : other = fifo
    · have ordered := conserves.ordered fifo
      rw [getD_head head] at ordered
      rw [same, getD_set head, if_pos rfl]
      simpa [home] using ordered
    · have elsewhere : item.fifo ≠ other := fun equal => same (equal.symm.trans home)
      simpa [elsewhere] using dropped.ordered other

theorem flatten_modify_perm (bound : fifo < fifos.length) (item : Item) :
    (fifos.modify fifo (· ++ [item])).flatten.Perm (item :: fifos.flatten) := by
  induction fifos generalizing fifo with
  | nil => simp at bound
  | cons list fifos inductionHypothesis =>
      cases fifo with
      | zero =>
          simp only [List.modify_zero_cons, List.flatten_cons, List.append_assoc]
          exact List.perm_middle
      | succ fifo =>
          have tail := inductionHypothesis (by simpa using bound)
          simp only [List.modify_succ_cons, List.flatten_cons]
          exact (tail.append_left list).trans List.perm_middle

theorem getD_modify (bound : fifo < fifos.length) (item : Item) (other : Nat) :
    (fifos.modify fifo (· ++ [item])).getD other [] =
      fifos.getD other [] ++ if other = fifo then [item] else [] := by
  rw [List.getD_eq_getElem?_getD, List.getD_eq_getElem?_getD, List.getElem?_modify]
  by_cases same : fifo = other
  · subst same
    simp [bound]
  · simp [same, Ne.symm same]

theorem mem_flatten (mem : item ∈ fifos.getD fifo []) : item ∈ fifos.flatten := by
  rw [List.getD_eq_getElem?_getD] at mem
  cases list : fifos[fifo]? with
  | none => simp [list] at mem
  | some entries =>
      rw [list] at mem
      exact List.mem_flatten.mpr ⟨entries, List.mem_of_getElem? list, mem⟩

/-- The numbers of one internal queue are those of items that were made. -/
theorem lt_nextItem (conserves : Conserves fifos nextItem dequeued leaving) {number : Nat}
    (mem : number ∈ (leaving.filter fun item => item.fifo = fifo).map Item.number ++
      (fifos.getD fifo []).map Item.number) : number < nextItem := by
  apply conserves.made
  rcases List.mem_append.mp mem with left | inside
  · obtain ⟨entry, isLeaving, rfl⟩ := List.mem_map.mp left
    rw [conserves.numbers]
    exact List.mem_append_right _ (List.mem_map_of_mem (List.mem_of_mem_filter isLeaving))
  · obtain ⟨entry, isInside, rfl⟩ := List.mem_map.mp inside
    exact List.mem_append_left _ (List.mem_map_of_mem (mem_flatten isInside))

/-- A new item at the end of an internal queue. -/
theorem put (conserves : Conserves fifos nextItem dequeued leaving) (bound : fifo < fifos.length)
    (number : item.number = nextItem) (home : item.fifo = fifo) :
    Conserves (fifos.modify fifo (· ++ [item])) (nextItem + 1) dequeued leaving := by
  have perm := ((flatten_modify_perm bound item).map Item.number).append_right dequeued
  rw [List.map_cons, List.cons_append, number] at perm
  refine ⟨conserves.numbers, ?_, ?_, ?_, ?_⟩
  · rw [perm.nodup_iff, List.nodup_cons]
    refine ⟨fun mem => ?_, conserves.distinct⟩
    exact Nat.lt_irrefl _ (conserves.made nextItem mem)
  · intro other mem
    rcases List.mem_cons.mp (perm.mem_iff.mp mem) with rfl | old
    · exact Nat.lt_succ_self _
    · exact Nat.lt_succ_of_lt (conserves.made other old)
  · intro other entry mem
    rw [getD_modify bound] at mem
    rcases List.mem_append.mp mem with old | new
    · exact conserves.home other entry old
    · split at new
      · next same =>
          rw [List.mem_singleton.mp new, home, same]
      · cases new
  · intro other
    rw [getD_modify bound]
    split
    · rw [List.map_append, ← List.append_assoc, List.pairwise_append]
      refine ⟨conserves.ordered other, by simp, ?_⟩
      intro earlier mem later isNew
      simp only [List.map_cons, List.map_nil, List.mem_singleton] at isNew
      rw [isNew, number]
      exact conserves.lt_nextItem mem
    · rw [List.append_nil]
      exact conserves.ordered other

/-- An item that no internal queue takes. -/
theorem skip (conserves : Conserves fifos nextItem dequeued leaving) :
    Conserves fifos (nextItem + 1) dequeued leaving :=
  { conserves with made := fun number mem => Nat.lt_succ_of_lt (conserves.made number mem) }

/-- The header of the last item does not matter. -/
theorem addHeader (conserves : Conserves fifos nextItem dequeued (leaving ++ [item])) :
    Conserves fifos nextItem dequeued (leaving ++ [item.addHeader]) := by
  refine { conserves with numbers := ?_, ordered := fun fifo => ?_ }
  · simpa [Item.addHeader] using conserves.numbers
  · have ordered := conserves.ordered fifo
    simp only [List.filter_append, List.map_append] at ordered ⊢
    by_cases same : item.fifo = fifo
    · simpa [Item.addHeader, same] using ordered
    · simpa [Item.addHeader, same] using ordered

end Conserves

end Ns3.TrafficControl.Transmission
