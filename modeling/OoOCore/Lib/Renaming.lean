/-
Register renaming with checkpoints, over arbitrary register types.  A queue of
in-flight writes overlays a committed map; a checkpoint remembers the overlay
and the unused registers at its position.  Committing the oldest item,
appending one, truncating to a checkpoint and dropping the whole queue all keep
the invariant.
-/
import Mathlib.Data.Set.Insert
import Mathlib.Data.List.Basic
import Mathlib.Logic.Function.Basic

namespace OoOCore

namespace Renaming

variable {A P : Type}

/-- A destination write: the register, its new name and the name it replaces. -/
structure Write (A P : Type) where
  reg : A
  new : P
  old : P

/-- The map and the unused names remembered at a recovery point. -/
structure Checkpoint (A P : Type) where
  map : A → P
  free : Set P

/-- One in-flight item. -/
@[ext]
structure Item (A P : Type) where
  write : Option (Write A P)
  checkpoint : Option (Checkpoint A P)

/-- The map after one more item. -/
def install [DecidableEq A] (m : A → P) (item : Item A P) : A → P :=
  match item.write with
  | some w => Function.update m w.reg w.new
  | none => m

/-- The map overlaid with a queue, oldest item first. -/
def overlay [DecidableEq A] (m : A → P) (queue : List (Item A P)) : A → P :=
  queue.foldl install m

/-- The names handed out to a queue. -/
def taken (queue : List (Item A P)) : List P :=
  queue.filterMap fun item => item.write.map Write.new

/-- The names neither in the map nor handed out. -/
def unused (m : A → P) (queue : List (Item A P)) : Set P :=
  {p | (∀ a, m a ≠ p) ∧ p ∉ taken queue}

/-- The name an item gives back when it commits. -/
def released (item : Item A P) : Set P :=
  {p | ∃ w, item.write = some w ∧ w.old = p}

/-- A queued item after an older one released its name: checkpoints learn of
it as well. -/
def Item.addFree (names : Set P) (item : Item A P) : Item A P :=
  { item with
    checkpoint := item.checkpoint.map fun c =>
      { c with free := c.free ∪ names } }

@[ext]
structure State (A P : Type) where
  committed : A → P
  speculative : A → P
  free : Set P
  queue : List (Item A P)

/-- The renaming invariant; register `z` keeps the name `p0`. -/
structure Wf [DecidableEq A] (z : A) (p0 : P) (s : State A P) : Prop where
  speculative_eq : s.speculative = overlay s.committed s.queue
  checkpoint_eq : ∀ older item younger c,
    s.queue = older ++ item :: younger → item.checkpoint = some c →
      c.map = overlay s.committed (older ++ [item]) ∧
        c.free = unused s.committed (older ++ [item])
  old_eq : ∀ older item younger w,
    s.queue = older ++ item :: younger → item.write = some w →
      w.old = overlay s.committed older w.reg
  committed_injective : Function.Injective s.committed
  taken_nodup : (taken s.queue).Nodup
  taken_fresh : ∀ p ∈ taken s.queue, ∀ a, s.committed a ≠ p
  free_eq : s.free = unused s.committed s.queue
  pinned : s.committed z = p0
  not_pinned : ∀ item ∈ s.queue, ∀ w, item.write = some w → w.reg ≠ z

section Taken

@[simp] theorem taken_nil : taken ([] : List (Item A P)) = [] := rfl

theorem taken_append (first second : List (Item A P)) :
    taken (first ++ second) = taken first ++ taken second :=
  List.filterMap_append

theorem taken_cons (item : Item A P) (queue : List (Item A P)) :
    taken (item :: queue) =
      (item.write.map Write.new).toList ++ taken queue := by
  cases h : item.write <;> simp [taken, h]

theorem taken_map_addFree (names : Set P) (queue : List (Item A P)) :
    taken (queue.map (Item.addFree names)) = taken queue := by
  induction queue with
  | nil => rfl
  | cons item rest ih =>
      rw [List.map_cons, taken_cons, taken_cons, ih]
      rfl

theorem unused_map_addFree (m : A → P) (names : Set P)
    (queue : List (Item A P)) :
    unused m (queue.map (Item.addFree names)) = unused m queue := by
  rw [unused, unused, taken_map_addFree]

/-- A split of the released queue comes from a split of the queue itself. -/
theorem split_of_map_addFree {names : Set P} {older younger : List (Item A P)}
    {rest : List (Item A P)} {queued : Item A P}
    (hsplit : rest.map (Item.addFree names) = older ++ queued :: younger) :
    ∃ older' queued' younger', rest = older' ++ queued' :: younger' ∧
      older = older'.map (Item.addFree names) ∧
      queued = queued'.addFree names := by
  obtain ⟨first, second, hrest, hfirst, hsecond⟩ :=
    List.map_eq_append_iff.mp hsplit
  obtain ⟨queued', younger', rfl, hqueued, -⟩ :=
    List.map_eq_cons_iff.mp hsecond
  exact ⟨first, queued', younger', hrest, hfirst.symm, hqueued.symm⟩

/-- A split of an extended list ends in the new element or lies before it. -/
theorem snoc_split {α : Type} {queue older younger : List α} {x y : α}
    (hsplit : queue ++ [x] = older ++ y :: younger) :
    (older = queue ∧ y = x ∧ younger = []) ∨
      ∃ younger', queue = older ++ y :: younger' := by
  rcases List.eq_nil_or_concat younger with rfl | ⟨younger', last, rfl⟩
  · left
    have heq := List.append_inj' hsplit rfl
    exact ⟨heq.1.symm, by simpa using heq.2.symm, rfl⟩
  · right
    refine ⟨younger', ?_⟩
    rw [List.concat_eq_append, ← List.cons_append,
      ← List.append_assoc] at hsplit
    exact (List.append_inj' hsplit rfl).1

end Taken

section Overlay

variable [DecidableEq A]

@[simp] theorem overlay_nil (m : A → P) : overlay m [] = m := rfl

@[simp] theorem overlay_cons (m : A → P) (item : Item A P)
    (queue : List (Item A P)) :
    overlay m (item :: queue) = overlay (install m item) queue := rfl

theorem overlay_append (m : A → P) (first second : List (Item A P)) :
    overlay m (first ++ second) = overlay (overlay m first) second :=
  List.foldl_append

theorem overlay_snoc (m : A → P) (queue : List (Item A P))
    (item : Item A P) :
    overlay m (queue ++ [item]) = install (overlay m queue) item := by
  rw [overlay_append]
  rfl

@[simp] theorem install_addFree (m : A → P) (names : Set P)
    (item : Item A P) : install m (item.addFree names) = install m item := rfl

theorem overlay_map_addFree (m : A → P) (names : Set P)
    (queue : List (Item A P)) :
    overlay m (queue.map (Item.addFree names)) = overlay m queue := by
  induction queue generalizing m with
  | nil => rfl
  | cons item rest ih => exact ih (install m item)

/-- An overlaid name comes from the map or from a queued write. -/
theorem overlay_cases (m : A → P) (queue : List (Item A P)) (a : A) :
    overlay m queue a = m a ∨ overlay m queue a ∈ taken queue := by
  induction queue generalizing m with
  | nil => exact Or.inl rfl
  | cons item rest ih =>
      rw [overlay_cons, taken_cons]
      rcases ih (install m item) with h | h
      · rw [h, install]
        cases item.write with
        | none => exact Or.inl rfl
        | some w =>
            by_cases ha : a = w.reg
            · subst ha
              right
              change Function.update m w.reg w.new w.reg ∈ _
              rw [Function.update_self]
              simp
            · left
              exact Function.update_of_ne ha _ _
      · exact Or.inr (List.mem_append_right _ h)

/-- Younger writes use none of the names that older ones overlay. -/
theorem Wf.overlay_ne_taken {z : A} {p0 : P} {s : State A P}
    (hwf : Wf z p0 s) {older younger : List (Item A P)}
    (hqueue : s.queue = older ++ younger) {p : P} (hp : p ∈ taken younger)
    (a : A) : overlay s.committed older a ≠ p := by
  rintro rfl
  have hnodup := hwf.taken_nodup
  have hfresh := hwf.taken_fresh
  rw [hqueue, taken_append] at hnodup hfresh
  rcases overlay_cases s.committed older a with h | h
  · exact hfresh _ (List.mem_append_right _ hp) a h.symm
  · exact (List.nodup_append.mp hnodup).2.2 _ h _ hp rfl

end Overlay

section Commit

variable [DecidableEq A] {z : A} {p0 : P} {s : State A P} {item : Item A P}
  {rest : List (Item A P)}

/-- Retire the oldest item. -/
def commit (s : State A P) (item : Item A P) (rest : List (Item A P)) :
    State A P where
  committed := install s.committed item
  speculative := s.speculative
  free := s.free ∪ released item
  queue := rest.map (Item.addFree (released item))

/-- The oldest writer replaces the committed name of its register. -/
theorem Wf.old_of_head (hwf : Wf z p0 s) (hqueue : s.queue = item :: rest)
    {w : Write A P} (hw : item.write = some w) :
    w.old = s.committed w.reg :=
  hwf.old_eq [] item rest w hqueue hw

/-- Committing the oldest item moves its old name to the unused ones. -/
theorem Wf.unused_commit (hwf : Wf z p0 s) (hqueue : s.queue = item :: rest)
    {queue : List (Item A P)} (hqueue' : ∀ p ∈ taken queue, p ∈ taken rest) :
    unused (install s.committed item) queue =
      unused s.committed (item :: queue) ∪ released item := by
  have hfresh := hwf.taken_fresh
  have hnodup := hwf.taken_nodup
  rw [hqueue, taken_cons] at hfresh hnodup
  ext p
  cases hw : item.write with
  | none => simp [unused, released, taken_cons, install, hw]
  | some w =>
      have hold := hwf.old_of_head hqueue hw
      rw [hw] at hfresh hnodup
      simp only [Option.map_some, Option.toList_some, List.cons_append,
        List.nil_append, List.nodup_cons] at hnodup
      have hnew : ∀ a, s.committed a ≠ w.new := hfresh w.new (by simp)
      simp only [unused, released, taken_cons, install, hw, Option.map_some,
        Option.toList_some, List.cons_append, List.nil_append, Set.mem_union,
        Set.mem_ofPred_eq, List.mem_cons, not_or, Option.some.injEq,
        exists_eq_left', hold]
      constructor
      · rintro ⟨hmap, htaken⟩
        have hpnew : p ≠ w.new := by
          have hself := hmap w.reg
          rw [Function.update_self] at hself
          exact fun h => hself h.symm
        by_cases hpold : s.committed w.reg = p
        · exact Or.inr hpold
        · left
          refine ⟨fun a ha => ?_, hpnew, htaken⟩
          by_cases hreg : a = w.reg
          · subst hreg
            exact hpold ha
          · have hother := hmap a
            rw [Function.update_of_ne hreg] at hother
            exact hother ha
      · rintro (⟨hmap, hpnew, htaken⟩ | hpold)
        · refine ⟨fun a => ?_, htaken⟩
          by_cases hreg : a = w.reg
          · subst hreg
            rw [Function.update_self]
            exact fun h => hpnew h.symm
          · rw [Function.update_of_ne hreg]
            exact hmap a
        · subst hpold
          refine ⟨fun a => ?_, ?_⟩
          · by_cases hreg : a = w.reg
            · subst hreg
              rw [Function.update_self]
              exact (hnew w.reg).symm
            · rw [Function.update_of_ne hreg]
              exact fun h => hreg (hwf.committed_injective h)
          · intro htaken
            exact hfresh _ (by simp [hqueue' _ htaken]) w.reg rfl

theorem Wf.install_injective (hwf : Wf z p0 s)
    (hqueue : s.queue = item :: rest) :
    Function.Injective (install s.committed item) := by
  have hfresh := hwf.taken_fresh
  rw [hqueue, taken_cons] at hfresh
  cases hw : item.write with
  | none =>
      simp only [install, hw]
      exact hwf.committed_injective
  | some w =>
      rw [hw] at hfresh
      have hnew : ∀ a, s.committed a ≠ w.new := hfresh w.new (by simp)
      intro a b heq
      simp only [install, hw, Function.update_apply] at heq
      split_ifs at heq with ha hb hb
      · rw [ha, hb]
      · exact absurd heq.symm (hnew b)
      · exact absurd heq (hnew a)
      · exact hwf.committed_injective heq

theorem Wf.commit (hwf : Wf z p0 s) (hqueue : s.queue = item :: rest) :
    Wf z p0 (commit s item rest) where
  speculative_eq := by
    change s.speculative = overlay (install s.committed item)
      (rest.map (Item.addFree (released item)))
    rw [overlay_map_addFree, hwf.speculative_eq, hqueue]
    rfl
  checkpoint_eq := by
    intro older queued younger c hsplit hc
    obtain ⟨older', queued', younger', hrest, rfl, rfl⟩ :=
      split_of_map_addFree hsplit
    simp only [Item.addFree, Option.map_eq_some_iff] at hc
    obtain ⟨c', hc', rfl⟩ := hc
    have hold := hwf.checkpoint_eq (item :: older') queued' younger' c'
      (by rw [hqueue, hrest]; rfl) hc'
    have hmap : older'.map (Item.addFree (released item)) ++
        [queued'.addFree (released item)] =
        (older' ++ [queued']).map (Item.addFree (released item)) := by simp
    rw [hmap, overlay_map_addFree, unused_map_addFree]
    refine ⟨hold.1, ?_⟩
    change c'.free ∪ released item = unused (install s.committed item) _
    rw [hold.2, hwf.unused_commit hqueue]
    · rfl
    · intro p hp
      rw [hrest, taken_append, taken_cons]
      rw [taken_append, taken_cons] at hp
      simp only [taken_nil, List.append_nil, List.mem_append] at hp ⊢
      tauto
  old_eq := by
    intro older queued younger w hsplit hw
    obtain ⟨older', queued', younger', hrest, rfl, rfl⟩ :=
      split_of_map_addFree hsplit
    rw [overlay_map_addFree]
    exact hwf.old_eq (item :: older') queued' younger' w
      (by rw [hqueue, hrest]; rfl) hw
  committed_injective := hwf.install_injective hqueue
  taken_nodup := by
    have hnodup := hwf.taken_nodup
    rw [hqueue, taken_cons] at hnodup
    change (taken (rest.map _)).Nodup
    rw [taken_map_addFree]
    exact (List.nodup_append.mp hnodup).2.1
  taken_fresh := by
    intro p hp a heq
    change p ∈ taken (rest.map _) at hp
    change install s.committed item a = p at heq
    rw [taken_map_addFree] at hp
    have hnodup := hwf.taken_nodup
    have hfresh := hwf.taken_fresh
    rw [hqueue, taken_cons] at hnodup hfresh
    cases hw : item.write with
    | none =>
        simp only [install, hw] at heq
        exact hfresh p (by simp [hp]) a heq
    | some w =>
        rw [hw] at hnodup
        simp only [install, hw, Function.update_apply] at heq
        split_ifs at heq
        · subst heq
          simp only [Option.map_some, Option.toList_some, List.cons_append,
            List.nil_append, List.nodup_cons] at hnodup
          exact hnodup.1 hp
        · exact hfresh p (by simp [hp]) a heq
  free_eq := by
    change s.free ∪ released item = unused (install s.committed item)
      (rest.map (Item.addFree (released item)))
    rw [unused_map_addFree, hwf.unused_commit hqueue (fun _ h => h),
      hwf.free_eq, hqueue]
  pinned := by
    have hnot := hwf.not_pinned item (by rw [hqueue]; simp)
    change install s.committed item z = p0
    cases hw : item.write with
    | none =>
        simp only [install, hw]
        exact hwf.pinned
    | some w =>
        simp only [install, hw]
        rw [Function.update_of_ne (hnot w hw).symm]
        exact hwf.pinned
  not_pinned := by
    intro queued hmem w hw
    obtain ⟨queued', hmem', rfl⟩ := List.mem_map.mp hmem
    exact hwf.not_pinned queued' (by rw [hqueue]; simp [hmem']) w hw

end Commit

section Allocate

variable [DecidableEq A] {z : A} {p0 : P} {s : State A P}

/-- The names handed out to one item. -/
def acquired (dest : Option (A × P)) : Set P := {p | ∃ a, dest = some (a, p)}

/-- The item renaming makes for a destination, with a checkpoint on demand. -/
def newItem (s : State A P) (dest : Option (A × P)) (mark : Bool) :
    Item A P :=
  let write := dest.map fun d => ⟨d.1, d.2, s.speculative d.1⟩
  { write := write
    checkpoint := if mark then
        some ⟨install s.speculative ⟨write, none⟩, s.free \ acquired dest⟩
      else none }

/-- Rename one more item. -/
def allocate (s : State A P) (dest : Option (A × P)) (mark : Bool) :
    State A P where
  committed := s.committed
  speculative := install s.speculative (newItem s dest mark)
  free := s.free \ acquired dest
  queue := s.queue ++ [newItem s dest mark]

theorem taken_newItem (dest : Option (A × P)) (mark : Bool) :
    taken [newItem s dest mark] = (dest.map Prod.snd).toList := by
  cases dest <;> rfl

theorem unused_snoc (m : A → P) (queue : List (Item A P))
    (dest : Option (A × P)) (mark : Bool) :
    unused m (queue ++ [newItem s dest mark]) =
      unused m queue \ acquired dest := by
  ext p
  rw [unused, taken_append, taken_newItem]
  cases dest with
  | none => simp [unused, acquired]
  | some d =>
      simp only [Option.map_some, Option.toList_some, List.mem_append,
        List.mem_singleton, not_or, Set.mem_ofPred_eq, unused, acquired,
        Set.mem_sdiff, Option.some.injEq, not_exists]
      constructor
      · rintro ⟨hmap, htaken, hne⟩
        refine ⟨⟨hmap, htaken⟩, ?_⟩
        rintro a rfl
        exact hne rfl
      · rintro ⟨⟨hmap, htaken⟩, hne⟩
        exact ⟨hmap, htaken, fun h => hne d.1 (by rw [h])⟩

theorem Wf.allocate (hwf : Wf z p0 s) {dest : Option (A × P)} (mark : Bool)
    (hdest : ∀ d, dest = some d → d.1 ≠ z ∧ d.2 ∈ s.free) :
    Wf z p0 (allocate s dest mark) where
  speculative_eq := by
    change install s.speculative _ = overlay s.committed (s.queue ++ [_])
    rw [overlay_snoc, hwf.speculative_eq]
  checkpoint_eq := by
    intro older item younger c hsplit hc
    rcases snoc_split hsplit with ⟨rfl, rfl, rfl⟩ | ⟨younger', hqueue⟩
    · change c.map = overlay s.committed (s.queue ++ [_]) ∧
        c.free = unused s.committed (s.queue ++ [_])
      rw [overlay_snoc, unused_snoc, ← hwf.speculative_eq, ← hwf.free_eq]
      cases mark with
      | false => simp [newItem] at hc
      | true =>
          simp only [newItem, if_true, Option.some.injEq] at hc
          subst hc
          exact ⟨rfl, rfl⟩
    · exact hwf.checkpoint_eq older item younger' c hqueue hc
  old_eq := by
    intro older item younger w hsplit hw
    rcases snoc_split hsplit with ⟨rfl, rfl, rfl⟩ | ⟨younger', hqueue⟩
    · simp only [newItem, Option.map_eq_some_iff] at hw
      obtain ⟨d, -, rfl⟩ := hw
      change s.speculative d.1 = overlay s.committed s.queue d.1
      rw [hwf.speculative_eq]
    · exact hwf.old_eq older item younger' w hqueue hw
  committed_injective := hwf.committed_injective
  taken_nodup := by
    change (taken (s.queue ++ [newItem s dest mark])).Nodup
    rw [taken_append, taken_newItem]
    cases hd : dest with
    | none => simpa using hwf.taken_nodup
    | some d =>
        have hfree := (hdest d hd).2
        rw [hwf.free_eq] at hfree
        simp only [Option.map_some, Option.toList_some]
        rw [List.nodup_append]
        refine ⟨hwf.taken_nodup, by simp, ?_⟩
        rintro p hp q hq rfl
        rw [List.mem_singleton] at hq
        subst hq
        exact hfree.2 hp
  taken_fresh := by
    intro p hp
    change p ∈ taken (s.queue ++ [newItem s dest mark]) at hp
    rw [taken_append, taken_newItem, List.mem_append] at hp
    rcases hp with hp | hp
    · exact hwf.taken_fresh p hp
    · cases hd : dest with
      | none => simp [hd] at hp
      | some d =>
          have hfree := (hdest d hd).2
          rw [hwf.free_eq] at hfree
          simp only [hd, Option.map_some, Option.toList_some,
            List.mem_singleton] at hp
          subst hp
          exact hfree.1
  free_eq := by
    change s.free \ acquired dest = unused s.committed (s.queue ++ [_])
    rw [unused_snoc, hwf.free_eq]
  pinned := hwf.pinned
  not_pinned := by
    intro item hmem w hw
    change item ∈ s.queue ++ [newItem s dest mark] at hmem
    rw [List.mem_append, List.mem_singleton] at hmem
    rcases hmem with hmem | rfl
    · exact hwf.not_pinned item hmem w hw
    · simp only [newItem, Option.map_eq_some_iff] at hw
      obtain ⟨d, hd, rfl⟩ := hw
      exact (hdest d hd).1

end Allocate

section Recover

variable [DecidableEq A] {z : A} {p0 : P} {s : State A P}

/-- Return to a checkpoint, keeping the queue up to its item. -/
def recover (s : State A P) (older : List (Item A P)) (item : Item A P)
    (c : Checkpoint A P) : State A P where
  committed := s.committed
  speculative := c.map
  free := c.free
  queue := older ++ [item]

theorem Wf.recover (hwf : Wf z p0 s) {older younger : List (Item A P)}
    {item : Item A P} {c : Checkpoint A P}
    (hqueue : s.queue = older ++ item :: younger)
    (hc : item.checkpoint = some c) : Wf z p0 (recover s older item c) := by
  have hsplit : s.queue = (older ++ [item]) ++ younger := by
    rw [hqueue, List.append_assoc]
    rfl
  have hcheck := hwf.checkpoint_eq older item younger c hqueue hc
  refine
    { speculative_eq := hcheck.1
      checkpoint_eq := ?_
      old_eq := ?_
      committed_injective := hwf.committed_injective
      taken_nodup := ?_
      taken_fresh := ?_
      free_eq := hcheck.2
      pinned := hwf.pinned
      not_pinned := ?_ }
  · intro older' item' younger' c' heq hc'
    change older ++ [item] = _ at heq
    exact hwf.checkpoint_eq older' item' (younger' ++ younger) c'
      (by rw [hsplit, heq]; simp) hc'
  · intro older' item' younger' w heq hw
    change older ++ [item] = _ at heq
    exact hwf.old_eq older' item' (younger' ++ younger) w
      (by rw [hsplit, heq]; simp) hw
  · have hnodup := hwf.taken_nodup
    rw [hsplit, taken_append] at hnodup
    exact (List.nodup_append.mp hnodup).1
  · intro p hp
    apply hwf.taken_fresh p
    rw [hsplit, taken_append]
    exact List.mem_append_left _ hp
  · intro item' hmem w hw
    apply hwf.not_pinned item' _ w hw
    rw [hsplit]
    exact List.mem_append_left _ hmem

/-- Drop every in-flight item. -/
def flush (s : State A P) : State A P where
  committed := s.committed
  speculative := s.committed
  free := unused s.committed []
  queue := []

theorem Wf.flush (hwf : Wf z p0 s) : Wf z p0 (flush s) where
  speculative_eq := rfl
  checkpoint_eq := by
    intro older item younger c hsplit
    simp [Renaming.flush] at hsplit
  old_eq := by
    intro older item younger w hsplit
    simp [Renaming.flush] at hsplit
  committed_injective := hwf.committed_injective
  taken_nodup := by simp [Renaming.flush]
  taken_fresh := by simp [Renaming.flush]
  free_eq := rfl
  pinned := hwf.pinned
  not_pinned := by simp [Renaming.flush]

end Recover

section Released

variable (s : State A P)

/-- The names the head gives back if a commit lane fires. -/
def headReleased (fire : Bool) : Set P :=
  {p | fire = true ∧ ∃ item, s.queue.head? = some item ∧ p ∈ released item}

variable {s}

theorem addFree_empty (item : Item A P) : item.addFree ∅ = item := by
  obtain ⟨write, checkpoint⟩ := item
  cases checkpoint <;> simp [Item.addFree]

theorem addFree_addFree (first second : Set P) (item : Item A P) :
    (item.addFree first).addFree second = item.addFree (first ∪ second) := by
  obtain ⟨write, checkpoint⟩ := item
  cases checkpoint <;> simp [Item.addFree, Set.union_assoc]

theorem headReleased_false : headReleased s false = ∅ := by
  simp [headReleased]

theorem headReleased_cons {item : Item A P} {rest : List (Item A P)}
    (hqueue : s.queue = item :: rest) :
    headReleased s true = released item := by
  simp [headReleased, hqueue]

end Released

section Lanes

variable [DecidableEq A] {z : A} {p0 : P} (s : State A P)

/-- One commit lane. -/
def commitIf (fire : Bool) : State A P :=
  if fire then
    match s.queue with
    | item :: rest => commit s item rest
    | [] => s
  else s

/-- One rename lane. -/
def allocateIf (fire : Bool) (dest : Option (A × P)) (mark : Bool) :
    State A P :=
  if fire then allocate s dest mark else s

variable {s}

theorem commitIf_speculative (fire : Bool) :
    (commitIf s fire).speculative = s.speculative := by
  cases fire with
  | false => rfl
  | true =>
      cases hqueue : s.queue with
      | nil => simp [commitIf, hqueue]
      | cons item rest => simp [commitIf, hqueue, commit]

theorem commitIf_free (fire : Bool) :
    (commitIf s fire).free = s.free ∪ headReleased s fire := by
  cases fire with
  | false => simp [commitIf, headReleased_false]
  | true =>
      cases hqueue : s.queue with
      | nil => simp [commitIf, hqueue, headReleased]
      | cons item rest =>
          rw [headReleased_cons hqueue]
          simp [commitIf, hqueue, commit]

theorem commitIf_queue (fire : Bool) :
    (commitIf s fire).queue =
      (s.queue.drop fire.toNat).map (Item.addFree (headReleased s fire)) := by
  cases fire with
  | false =>
      rw [headReleased_false]
      have hid : (Item.addFree ∅ : Item A P → Item A P) = id :=
        funext addFree_empty
      simp [commitIf, hid]
  | true =>
      cases hqueue : s.queue with
      | nil => simp [commitIf, hqueue]
      | cons item rest =>
          rw [headReleased_cons hqueue]
          simp [commitIf, hqueue, commit]

theorem commitIf_committed {item : Item A P} {fire : Bool}
    (hhead : fire = true → s.queue.head? = some item) :
    (commitIf s fire).committed =
      if fire then install s.committed item else s.committed := by
  cases fire with
  | false => rfl
  | true =>
      cases hqueue : s.queue with
      | nil => simp [hqueue] at hhead
      | cons first rest =>
          have hfirst : first = item := by simpa [hqueue] using hhead
          simp [commitIf, hqueue, commit, hfirst]

theorem Wf.commitIf (hwf : Wf z p0 s) (fire : Bool) :
    Wf z p0 (commitIf s fire) := by
  cases fire with
  | false => exact hwf
  | true =>
      cases hqueue : s.queue with
      | nil => simpa [Renaming.commitIf, hqueue] using hwf
      | cons item rest =>
          simpa [Renaming.commitIf, hqueue] using hwf.commit hqueue

/-- A name the committed state releases was not unused before. -/
theorem Wf.headReleased_not_free (hwf : Wf z p0 s) {fire : Bool} {p : P}
    (hp : p ∈ headReleased s fire) : p ∉ s.free ∧ p ≠ p0 := by
  obtain ⟨-, item, hhead, w, hw, rfl⟩ := hp
  obtain ⟨rest, hqueue⟩ := List.head?_eq_some_iff.mp hhead
  have hold := hwf.old_of_head hqueue hw
  refine ⟨fun hfree => ?_, fun hzero => ?_⟩
  · rw [hwf.free_eq] at hfree
    exact hfree.1 w.reg hold.symm
  · have hpinned : s.committed w.reg = s.committed z := by
      rw [← hold, hzero, hwf.pinned]
    exact hwf.not_pinned item (by rw [hqueue]; simp) w hw
      (hwf.committed_injective hpinned)

theorem Wf.allocateIf (hwf : Wf z p0 s) {fire mark : Bool}
    {dest : Option (A × P)}
    (hdest : fire = true → ∀ d, dest = some d → d.1 ≠ z ∧ d.2 ∈ s.free) :
    Wf z p0 (allocateIf s fire dest mark) := by
  cases fire with
  | false => exact hwf
  | true => exact hwf.allocate mark (hdest rfl)

theorem allocateIf_committed (fire : Bool) (dest : Option (A × P))
    (mark : Bool) : (allocateIf s fire dest mark).committed = s.committed := by
  cases fire <;> rfl

theorem allocateIf_speculative (fire : Bool) (dest : Option (A × P))
    (mark : Bool) : (allocateIf s fire dest mark).speculative =
      if fire then install s.speculative (newItem s dest mark)
      else s.speculative := by
  cases fire <;> rfl

theorem allocateIf_free (fire : Bool) (dest : Option (A × P)) (mark : Bool) :
    (allocateIf s fire dest mark).free =
      if fire then s.free \ acquired dest else s.free := by
  cases fire <;> rfl

theorem allocateIf_queue (fire : Bool) (dest : Option (A × P)) (mark : Bool) :
    (allocateIf s fire dest mark).queue =
      s.queue ++ if fire then [newItem s dest mark] else [] := by
  cases fire
  · simp [allocateIf]
  · rfl

end Lanes

end Renaming

end OoOCore
