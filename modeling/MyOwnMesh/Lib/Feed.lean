import Mathlib.Algebra.BigOperators.Group.List.Basic
import Mathlib.Algebra.GroupWithZero.Nat

/-!
# A feed read with reported gaps

A reader takes items off a feed in order and is told how many it missed. `Faithful` says that every
item it took stands in the feed behind exactly as many items as it had taken and been told of
before: none was skipped without a report, none came twice and none came late.
-/

namespace Lib.Feed

universe u

variable {α : Type u}

/-- An item, or the report of some items that were missed. -/
inductive Read (α : Type u) where
  | item (x : α)
  | gap (missed : Nat)

/-- How many items of the feed a read stands for. -/
def Read.span : Read α → Nat
  | .item _ => 1
  | .gap missed => missed

/-- How far into the feed the reads go. -/
def position (reads : List (Read α)) : Nat := (reads.map Read.span).sum

/-- The items that were taken. -/
def items (reads : List (Read α)) : List α :=
  reads.filterMap fun
    | .item x => some x
    | .gap _ => none

/-- The reports of missed items. -/
def gaps (reads : List (Read α)) : List Nat :=
  reads.filterMap fun
    | .item _ => none
    | .gap missed => some missed

/-- Every item stands where the reads before it end. -/
def Faithful (feed : List α) (reads : List (Read α)) : Prop :=
  ∀ before x after, reads = before ++ .item x :: after → feed[position before]? = some x

variable {feed : List α} {reads : List (Read α)}

/-- Items taken and items missed are all there is. -/
theorem position_eq (reads : List (Read α)) :
    position reads = (items reads).length + (gaps reads).sum := by
  induction reads with
  | nil => rfl
  | cons r rest ih =>
    cases r with
    | item x =>
      simp only [position, items, gaps, List.map_cons, List.sum_cons, Read.span,
        List.filterMap_cons] at ih ⊢
      rw [ih, List.length_cons]
      omega
    | gap missed =>
      simp only [position, items, gaps, List.map_cons, List.sum_cons, Read.span,
        List.filterMap_cons] at ih ⊢
      rw [ih]
      omega

@[simp] theorem position_snoc (reads : List (Read α)) (r : Read α) :
    position (reads ++ [r]) = position reads + r.span := by
  simp [position]

theorem faithful_nil (feed : List α) : Faithful feed [] := by
  intro before x after h
  simp at h

/-- A longer feed changes nothing. -/
theorem Faithful.append (h : Faithful feed reads) (more : List α) :
    Faithful (feed ++ more) reads := by
  intro before x after heq
  have hx := h before x after heq
  obtain ⟨hlt, -⟩ := List.getElem?_eq_some_iff.mp hx
  rw [List.getElem?_append_left hlt, hx]

/-- One more read is faithful if it is a gap or the next item. -/
theorem Faithful.snoc (h : Faithful feed reads) {r : Read α}
    (hr : ∀ x, r = .item x → feed[position reads]? = some x) : Faithful feed (reads ++ [r]) := by
  intro before x after heq
  rcases List.eq_nil_or_concat after with rfl | ⟨rest, last, rfl⟩
  · obtain ⟨rfl, hlast⟩ := List.append_inj' heq rfl
    exact hr x (List.singleton_inj.mp hlast)
  · have hsplit : reads ++ [r] = (before ++ .item x :: rest) ++ [last] := by
      rw [heq, List.concat_eq_append, List.append_assoc, List.cons_append]
    exact h before x rest (List.append_inj' hsplit rfl).1

private theorem items_sublist_drop (n : Nat)
    (h : ∀ before x after, reads = before ++ .item x :: after →
      feed[n + position before]? = some x) : (items reads).Sublist (feed.drop n) := by
  induction reads generalizing n with
  | nil => exact List.nil_sublist _
  | cons r rest ih =>
    have hrest : ∀ before x after, rest = before ++ .item x :: after →
        feed[n + r.span + position before]? = some x := by
      intro before x after heq
      have := h (r :: before) x after (by rw [heq, List.cons_append])
      rwa [position, List.map_cons, List.sum_cons, ← Nat.add_assoc] at this
    have htail := ih (n + r.span) hrest
    cases r with
    | item x =>
      have hx : feed[n]? = some x := h [] x rest rfl
      obtain ⟨hlt, hget⟩ := List.getElem?_eq_some_iff.mp hx
      rw [List.drop_eq_getElem_cons hlt, hget]
      exact htail.cons_cons x
    | gap missed =>
      exact htail.trans (List.drop_sublist_drop_left feed (Nat.le_add_right n missed))

/-- The items are a subsequence of the feed. -/
theorem Faithful.items_sublist (h : Faithful feed reads) : (items reads).Sublist feed := by
  have hall : (items reads).Sublist (feed.drop 0) := by
    refine items_sublist_drop 0 fun before x after heq ↦ ?_
    rw [Nat.zero_add]
    exact h before x after heq
  rwa [List.drop_zero] at hall

end Lib.Feed
