import Mathlib.Data.List.Basic

/-!
# What comes before an event

A trace is the list of the events so far. `Backed` says that every event of a trace was backed, when
it happened, by the events before it; a trace grows backed event by event. With names that are new
when they are drawn, an event that mentions a name comes after the one that drew it.
-/

namespace Lib.Trace

universe u v

variable {ε : Type u} {ν : Type v}

/-- Every event is backed by those before it. -/
def Backed (B : List ε → ε → Prop) (trace : List ε) : Prop :=
  ∀ before e after, trace = before ++ e :: after → B before e

/-- One event comes before another. -/
def Before (trace : List ε) (e f : ε) : Prop :=
  ∃ first between last, trace = first ++ e :: (between ++ f :: last)

variable {B : List ε → ε → Prop} {trace more : List ε} {e f : ε}

theorem Backed.nil : Backed B [] := by
  intro before e after h
  simp at h

/-- A trace goes on with a backed event. -/
theorem Backed.snoc (h : Backed B trace) (he : B trace e) : Backed B (trace ++ [e]) := by
  intro before x after hsplit
  rcases List.eq_nil_or_concat after with rfl | ⟨after, y, rfl⟩
  · obtain ⟨rfl, rfl⟩ : trace = before ∧ e = x := by simpa using hsplit
    exact he
  · have hends : trace ++ [e] = (before ++ x :: after) ++ [y] := by simp [hsplit]
    exact h before x after (List.append_inj' hends rfl).1

/-- A trace goes on with at most one event, which is backed. -/
theorem Backed.append (h : Backed B trace) (hmore : more = [] ∨ ∃ e, more = [e] ∧ B trace e) :
    Backed B (trace ++ more) := by
  obtain rfl | ⟨e, rfl, he⟩ := hmore
  · rwa [List.append_nil]
  · exact h.snoc he

/-- The first events of a trace were backed already. -/
theorem Backed.of_append (h : Backed B (trace ++ more)) : Backed B trace := by
  intro before e after hsplit
  exact h before e (after ++ more) (by simp [hsplit])

/-- Which name an event draws, and which it mentions. -/
structure Naming (ε : Type u) (ν : Type v) where
  draws : ε → Option ν
  mentions : ε → ν → Prop

/-- A name is not mentioned before it is drawn. -/
def Naming.Fresh (N : Naming ε ν) (before : List ε) (e : ε) : Prop :=
  ∀ x, N.draws e = some x → ∀ f ∈ before, ¬ N.mentions f x

/-- The event that draws a name comes before those that mention it. -/
theorem Backed.before_of_mentions {N : Naming ε ν} {x : ν} (h : Backed N.Fresh trace)
    (he : e ∈ trace) (hdraws : N.draws e = some x) (hf : f ∈ trace) (hmentions : N.mentions f x)
    (hne : f ≠ e) : Before trace e f := by
  obtain ⟨before, after, rfl⟩ := List.append_of_mem he
  have hnew := h before e after rfl x hdraws
  rcases List.mem_append.mp hf with hbefore | hlater
  · exact absurd hmentions (hnew f hbefore)
  · obtain ⟨between, last, rfl⟩ := List.append_of_mem ((List.mem_cons.mp hlater).resolve_left hne)
    exact ⟨before, between, last, rfl⟩

/-! ### The last event of a kind -/

/-- An event, and none of a kind after it. -/
def Since (trace : List ε) (e : ε) (p : ε → Prop) : Prop :=
  ∃ first rest, trace = first ++ e :: rest ∧ ∀ x ∈ rest, ¬ p x

/-- What a register holds that is written at every event of a kind. -/
def Latest (read : ε → ν) (p : ε → Prop) (trace : List ε) : Option ν → Prop
  | none => ∀ x ∈ trace, ¬ p x
  | some v => ∃ e, p e ∧ read e = v ∧ Since trace e p

variable {p : ε → Prop} {read : ε → ν} {v : Option ν}

theorem Since.mem (h : Since trace e p) : e ∈ trace := by
  obtain ⟨first, rest, rfl, -⟩ := h
  simp

/-- Events of other kinds leave the last one what it is. -/
theorem Since.append (h : Since trace e p) (hmore : ∀ x ∈ more, ¬ p x) :
    Since (trace ++ more) e p := by
  obtain ⟨first, rest, rfl, hrest⟩ := h
  refine ⟨first, rest ++ more, by simp, ?_⟩
  intro x hx
  exact (List.mem_append.mp hx).elim (hrest x) (hmore x)

theorem Since.last : Since (trace ++ [e]) e p := ⟨trace, [], rfl, by simp⟩

theorem Latest.append (h : Latest read p trace v) (hmore : ∀ x ∈ more, ¬ p x) :
    Latest read p (trace ++ more) v := by
  cases v with
  | none =>
    intro x hx
    exact (List.mem_append.mp hx).elim (h x) (hmore x)
  | some t =>
    obtain ⟨e, he, hread, hsince⟩ := h
    exact ⟨e, he, hread, hsince.append hmore⟩

/-- A new event of the kind is the last one. -/
theorem Latest.snoc (he : p e) : Latest read p (trace ++ [e]) (some (read e)) :=
  ⟨e, he, rfl, Since.last⟩

theorem Latest.ne_none (h : Latest read p trace v) (he : ∃ x ∈ trace, p x) : v ≠ none := by
  rintro rfl
  obtain ⟨x, hx, hpx⟩ := he
  exact h x hx hpx

end Lib.Trace
