import Ns3.TrafficControl.QueueDisc.Kernel

/-!
What the walks along a path do to every queue disc of the tree.

A dequeue is counted from the queue disc it happens in up to the first one that has
`m_peeked` set. The queue discs above are shielded from it, and a drop counts the dequeue
exactly at those.
-/

namespace Ns3.TrafficControl

variable {tree : Tree} {path above : Path} {item : QueueDiscItem}

@[simp]
theorem QueueDisc.setPeeked_peeked (disc : QueueDisc) (peeked : Bool) :
    (disc.setPeeked peeked).peeked = peeked := rfl

namespace Tree

@[simp]
theorem modify_paths (change : QueueDisc → QueueDisc) :
    (tree.modify path change).paths = tree.paths := rfl

theorem modify_discs (change : QueueDisc → QueueDisc) :
    (tree.modify path change).discs above =
      if above = path then change (tree.discs path) else tree.discs above := by
  simp [modify, Function.update_apply]

@[simp]
theorem modify_discs_same (change : QueueDisc → QueueDisc) :
    (tree.modify path change).discs path = change (tree.discs path) := by
  simp [modify_discs]

/-- A queue disc on the way from one path up to another has `m_peeked` set. -/
def Shielded (tree : Tree) (path above : Path) : Prop :=
  ∃ between ∈ path.tails, above <:+ between ∧ (tree.discs between).peeked = true

instance : Decidable (Shielded tree path above) :=
  inferInstanceAs (Decidable (∃ between ∈ path.tails, _))

theorem shielded_nil (reached : above <:+ []) :
    Shielded tree [] above ↔ (tree.discs []).peeked = true := by
  simp [Shielded, List.suffix_nil.mp reached]

theorem shielded_self : Shielded tree path path ↔ (tree.discs path).peeked = true := by
  constructor
  · rintro ⟨between, within, reached, peeked⟩
    have same := ((List.mem_tails _ _).mp within).eq_of_length_le reached.length_le
    exact same ▸ peeked
  · intro peeked
    exact ⟨path, by simp, List.suffix_refl path, peeked⟩

theorem shielded_cons {index : Nat} (reached : above <:+ path) :
    Shielded tree (index :: path) above ↔
      (tree.discs (index :: path)).peeked = true ∨ Shielded tree path above := by
  simp only [Shielded, List.tails_cons, List.mem_cons, exists_eq_or_imp]
  simp [reached.trans (List.suffix_cons index path)]

/-- Only the flags on the way count. -/
theorem shielded_congr {other : Tree}
    (same : ∀ between, between <:+ path →
      (other.discs between).peeked = (tree.discs between).peeked) :
    Shielded other path above ↔ Shielded tree path above := by
  have exchanged (between : Path) (within : between ∈ path.tails) :
      (above <:+ between ∧ (other.discs between).peeked = true) ↔
        (above <:+ between ∧ (tree.discs between).peeked = true) := by
    simp [same between ((List.mem_tails _ _).mp within)]
  constructor
  · rintro ⟨between, within, found⟩
    exact ⟨between, within, (exchanged between within).mp found⟩
  · rintro ⟨between, within, found⟩
    exact ⟨between, within, (exchanged between within).mpr found⟩

theorem not_cons_suffix {index : Nat} : ¬ (index :: path) <:+ path := by
  intro reached
  exact Nat.not_succ_le_self _ reached.length_le

@[simp]
theorem packetEnqueued_paths : (packetEnqueued item path tree).paths = tree.paths := by
  induction path generalizing tree with
  | nil => rfl
  | cons index parent inductionHypothesis => simp [packetEnqueued, inductionHypothesis]

theorem packetEnqueued_discs :
    (packetEnqueued item path tree).discs above =
      if above <:+ path then (tree.discs above).countEnqueued item else tree.discs above := by
  induction path generalizing tree with
  | nil => by_cases root : above = [] <;> simp [packetEnqueued, modify_discs, root]
  | cons index parent inductionHypothesis =>
      simp only [packetEnqueued, inductionHypothesis, modify_discs, List.suffix_cons_iff]
      by_cases same : above = index :: parent
      · simp [same, not_cons_suffix]
      · simp [same]

@[simp]
theorem dropBeforeEnqueue_paths (reason : String) :
    (dropBeforeEnqueue item path reason tree).paths = tree.paths := by
  induction path generalizing tree reason with
  | nil => rfl
  | cons index parent inductionHypothesis => simp [dropBeforeEnqueue, inductionHypothesis]

/-- Every queue disc on the way counts the drop, with a reason of its own. -/
theorem dropBeforeEnqueue_discs (reason : String) :
    ∃ reasons : Path → String, ∀ above, (dropBeforeEnqueue item path reason tree).discs above =
      if above <:+ path then (tree.discs above).countDroppedBefore item (reasons above)
      else tree.discs above := by
  induction path generalizing tree reason with
  | nil =>
      refine ⟨fun _ => reason, fun above => ?_⟩
      by_cases root : above = [] <;> simp [dropBeforeEnqueue, modify_discs, root]
  | cons index parent inductionHypothesis =>
      obtain ⟨reasons, counted⟩ := @inductionHypothesis
        (tree.modify (index :: parent) (·.countDroppedBefore item reason))
        (childQueueDiscDrop ++ reason)
      refine ⟨Function.update reasons (index :: parent) reason, fun above => ?_⟩
      simp only [dropBeforeEnqueue, counted, modify_discs, List.suffix_cons_iff]
      by_cases same : above = index :: parent
      · simp [same, not_cons_suffix]
      · simp [same]

@[simp]
theorem packetDequeued_paths : (packetDequeued item path tree).paths = tree.paths := by
  induction path generalizing tree with
  | nil => simp only [packetDequeued]; split <;> simp
  | cons index parent inductionHypothesis =>
      simp only [packetDequeued]
      split <;> simp [inductionHypothesis]

/-- A dequeue is counted up to the first queue disc with `m_peeked` set. -/
theorem packetDequeued_discs :
    (packetDequeued item path tree).discs above =
      if above <:+ path ∧ ¬ Shielded tree path above then (tree.discs above).countDequeued item
      else tree.discs above := by
  induction path generalizing tree with
  | nil =>
      by_cases root : above = []
      · subst root
        cases peeked : (tree.discs []).peeked <;> simp [packetDequeued, peeked, shielded_self]
      · simp only [packetDequeued, List.suffix_nil, root, false_and, if_false]
        split <;> simp [modify_discs, root]
  | cons index parent inductionHypothesis =>
      have kept : ∀ between, between <:+ parent →
          ((tree.modify (index :: parent) (·.countDequeued item)).discs between).peeked =
            (tree.discs between).peeked := by
        intro between reached
        have different : between ≠ index :: parent := by
          rintro rfl
          exact not_cons_suffix reached
        simp [modify_discs, different]
      by_cases same : above = index :: parent
      · subst same
        cases peeked : (tree.discs (index :: parent)).peeked
        · simp [packetDequeued, peeked, inductionHypothesis, not_cons_suffix, shielded_self]
        · simp [packetDequeued, peeked, shielded_self]
      · by_cases reached : above <:+ parent
        · cases peeked : (tree.discs (index :: parent)).peeked
          · simp [packetDequeued, peeked, inductionHypothesis, shielded_congr kept, reached,
              shielded_cons reached, List.suffix_cons_iff, modify_discs, same]
          · simp [packetDequeued, peeked, shielded_cons reached]
        · simp only [packetDequeued, List.suffix_cons_iff, same, reached, or_self, false_and,
            if_false]
          split <;> simp [inductionHypothesis, reached, modify_discs, same]

end Tree

/-- How a queue disc counts an item that is dropped: the dequeue is counted as well if it has
not been. -/
def QueueDisc.countDropped (disc : QueueDisc) (item : QueueDiscItem) (reason : String)
    (shielded : Prop) [Decidable shielded] : QueueDisc :=
  if shielded then (disc.countDroppedAfter item reason).countDequeued item
  else disc.countDroppedAfter item reason

namespace Tree

@[simp]
theorem dropDequeued_paths (reason : String) :
    (dropDequeued item path reason tree).paths = tree.paths := by
  simp only [dropDequeued]
  split <;> simp

/-- The first half of a drop counts the dequeue up to the next queue disc with `m_peeked`
set, if the queue disc itself has it set. -/
theorem dropDequeued_cons_discs {index : Nat} (reason : String) :
    (dropDequeued item (index :: path) reason tree).discs above =
      if above = index :: path then
        (tree.discs above).countDropped item reason (Shielded tree (index :: path) above)
      else if (tree.discs (index :: path)).peeked ∧ above <:+ path ∧ ¬ Shielded tree path above
        then (tree.discs above).countDequeued item
      else tree.discs above := by
  cases peeked : (tree.discs (index :: path)).peeked
  · by_cases same : above = index :: path
    · subst same
      simp [dropDequeued, peeked, QueueDisc.countDropped, shielded_self]
    · simp [dropDequeued, peeked, modify_discs, same]
  · simp only [dropDequeued, peeked, if_true, true_and, modify_discs]
    by_cases same : above = index :: path
    · subst same
      have open' : ¬ Shielded
          ((tree.modify (index :: path) (·.countDroppedAfter item reason)).modify
            (index :: path) (·.setPeeked false)) (index :: path) (index :: path) := by
        simp [shielded_self, QueueDisc.setPeeked]
      simp only [if_true, packetDequeued_discs, open', List.suffix_refl, not_false_eq_true,
        and_self, modify_discs_same, QueueDisc.countDropped, shielded_self, peeked]
      have flag : (tree.discs (index :: path)).peeked = true := peeked
      simp [QueueDisc.setPeeked, QueueDisc.countDequeued, QueueDisc.countDroppedAfter, flag]
    · have kept : ∀ between, between <:+ path →
          (((tree.modify (index :: path) (·.countDroppedAfter item reason)).modify
            (index :: path) (·.setPeeked false)).discs between).peeked =
            (tree.discs between).peeked := by
        intro between reached
        have different : between ≠ index :: path := by
          rintro rfl
          exact not_cons_suffix reached
        simp [modify_discs, different]
      simp only [same, if_false, packetDequeued_discs, modify_discs, List.suffix_cons_iff,
        false_or]
      by_cases reached : above <:+ path
      · simp [reached, shielded_cons reached, shielded_congr kept]
      · simp [reached]

theorem dropDequeued_nil_discs (reason : String) :
    (dropDequeued item [] reason tree).discs above =
      if above = [] then (tree.discs above).countDropped item reason (Shielded tree [] above)
      else tree.discs above := by
  by_cases same : above = []
  · subst same
    cases peeked : (tree.discs []).peeked
    · simp [dropDequeued, peeked, QueueDisc.countDropped, shielded_self]
    · simp [dropDequeued, peeked, QueueDisc.countDropped, shielded_self, packetDequeued,
        QueueDisc.setPeeked, QueueDisc.countDequeued, QueueDisc.countDroppedAfter]
  · cases peeked : (tree.discs []).peeked
    · simp [dropDequeued, peeked, modify_discs, same]
    · simp [dropDequeued, peeked, modify_discs, same, packetDequeued, QueueDisc.setPeeked]

theorem dropDequeued_peeked (reason : String) :
    ((dropDequeued item path reason tree).discs above).peeked = (tree.discs above).peeked := by
  cases path with
  | nil =>
      rw [dropDequeued_nil_discs, QueueDisc.countDropped]
      split_ifs <;> rfl
  | cons index parent =>
      rw [dropDequeued_cons_discs, QueueDisc.countDropped]
      split_ifs <;> rfl

@[simp]
theorem dropAfterDequeue_paths (reason : String) :
    (dropAfterDequeue item path reason tree).paths = tree.paths := by
  induction path generalizing tree reason with
  | nil => simp [dropAfterDequeue]
  | cons index parent inductionHypothesis => simp [dropAfterDequeue, inductionHypothesis]

/-- A drop is counted all the way up, and so is the dequeue where it was held back. -/
theorem dropAfterDequeue_discs (reason : String) :
    ∃ reasons : Path → String, ∀ above, (dropAfterDequeue item path reason tree).discs above =
      if above <:+ path then
        (tree.discs above).countDropped item (reasons above) (Shielded tree path above)
      else tree.discs above := by
  induction path generalizing tree reason with
  | nil =>
      refine ⟨fun _ => reason, fun above => ?_⟩
      simp only [dropAfterDequeue, dropDequeued_nil_discs, List.suffix_nil]
  | cons index parent inductionHypothesis =>
      obtain ⟨reasons, counted⟩ := @inductionHypothesis
        (dropDequeued item (index :: parent) reason tree) (childQueueDiscDrop ++ reason)
      refine ⟨Function.update reasons (index :: parent) reason, fun above => ?_⟩
      have kept := @shielded_congr tree parent above
        (dropDequeued item (index :: parent) reason tree) fun _ _ => dropDequeued_peeked reason
      simp only [dropAfterDequeue, counted, dropDequeued_cons_discs, List.suffix_cons_iff]
      by_cases same : above = index :: parent
      · simp [same, not_cons_suffix]
      · by_cases reached : above <:+ parent
        · simp only [same, reached, if_true, if_false, true_and, or_true, ne_eq,
            not_false_eq_true, Function.update_of_ne, QueueDisc.countDropped, kept,
            shielded_cons reached]
          cases peeked : (tree.discs (index :: parent)).peeked
          · simp
          · by_cases shielded : Shielded tree parent above
            · simp [shielded]
            · simp [shielded, QueueDisc.countDequeued, QueueDisc.countDroppedAfter]
        · simp [same, reached]

end Tree

end Ns3.TrafficControl
