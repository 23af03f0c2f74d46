import SourceMetrics.Proofs.ScopeHistory

/-! # The stack of open scopes

A scope is listed when it is opened, behind all scopes that were opened before, and it is put on top
of the stack. So the stack names functions that are there, the later ones above the earlier ones
(`Builder.WellScoped`), and a scope that is taken from it is not left further down. An event changes
the report of at most one function (`Builder.affected`), which is on the stack or new, so the report
of a scope that has been closed stays as it is (`Builder.Settled`).
-/

namespace SourceMetrics.Builder

open History

variable {R : Type} {initial b next : Builder R} {events : List (Event R)} {event : Event R}

/-- The stack of a builder after events. -/
structure WellScoped (events : List (Event R)) (b : Builder R) : Prop where
  /-- From the bottom of the stack to its top, the positions ascend. -/
  ascending : b.scopes.reverse.Pairwise (· < ·)
  listed : ∀ k ∈ b.scopes, k < b.report.functions.length
  length : b.report.functions.length = (openings events).length

private theorem WellScoped.descending (ordered : WellScoped events b) : b.scopes.Pairwise (· > ·) :=
  List.pairwise_reverse.mp ordered.ascending

/-- An innermost scope has a report. -/
theorem WellScoped.exists_current (ordered : WellScoped events b) (inside : b.scopes ≠ []) :
    ∃ f, b.current? = some f := by
  obtain ⟨k, outer, stack⟩ := List.exists_cons_of_ne_nil inside
  have below := ordered.listed k (by simp [stack])
  refine ⟨b.report.functions[k], ?_⟩
  rw [current?, stack, List.head?_cons, Option.bind_some, List.getElem?_eq_getElem below]

/-- There is room on the stack for each scope once. -/
theorem WellScoped.depth_le (ordered : WellScoped events b) :
    b.scopes.length ≤ (openings events).length := by
  have once : b.scopes.Nodup := ordered.descending.imp fun above same => by omega
  have inside : b.scopes ⊆ List.range b.report.functions.length :=
    fun k member => List.mem_range.mpr (ordered.listed k member)
  have room := (List.subperm_of_subset once inside).length_le
  rwa [List.length_range, ordered.length] at room

/-- A function that has a report, and whose scope is not open. -/
structure Settled (k : Nat) (f : FunctionReport R) (b : Builder R) : Prop where
  report : b.report.functions[k]? = some f
  closed : k ∉ b.scopes

/-- The innermost scope is settled as soon as it is closed: it is not further down on the stack. -/
theorem WellScoped.settled_closeScope (ordered : WellScoped events b) {k : Nat}
    (innermost : b.scopes.head? = some k) :
    ∃ f, b.current? = some f ∧ Settled k f b.closeScope := by
  obtain ⟨outer, stack⟩ := List.head?_eq_some_iff.mp innermost
  obtain ⟨f, current⟩ := ordered.exists_current (by simp [stack])
  have descending := ordered.descending
  rw [stack, List.pairwise_cons] at descending
  refine ⟨f, current, ?_, ?_⟩
  · rwa [current?, stack, List.head?_cons, Option.bind_some] at current
  · intro again
    have below : k > k := descending.1 k (by simpa [closeScope, stack] using again)
    exact Nat.lt_irrefl k below

/-- The function whose report an event may change: that of the innermost open scope for a node, and
the one that is added for an opening. -/
def affected (b : Builder R) : Event R → Option Nat
  | .node _ _ => b.scopes.head?
  | .openScope _ _ _ => some b.report.functions.length
  | .closeScope => none

variable [Arithmetic R] {call : Interpretation R} {location : Value R}

/-- What one event preserves. -/
theorem WellScoped.step (ordered : WellScoped events b)
    (done : b.step call event = { state := next }) : WellScoped (events ++ [event]) next := by
  cases event with
  | node visited rule =>
    obtain ⟨-, effect⟩ := effect_of_process done
    refine ⟨?_, ?_, ?_⟩
    · rw [effect.scopes]
      exact ordered.ascending
    · rw [effect.scopes, effect.length]
      exact ordered.listed
    · rw [effect.length, ordered.length, openings_concat]
      simp [Event.opening?]
  | openScope name place params =>
    obtain ⟨f, sum, -, -, rfl⟩ := openScope_eq_ok done
    refine ⟨?_, ?_, ?_⟩
    · rw [List.pairwise_reverse, List.pairwise_cons]
      exact ⟨ordered.listed, ordered.descending⟩
    · intro k member
      rw [List.length_append, List.length_singleton]
      rcases List.mem_cons.mp member with rfl | before
      · exact Nat.lt_succ_self _
      · exact Nat.lt_succ_of_lt (ordered.listed k before)
    · rw [openings_concat, List.length_append, List.length_append, ordered.length]
      rfl
  | closeScope =>
    cases done
    refine ⟨?_, ?_, ?_⟩
    · exact List.pairwise_reverse.mpr (ordered.descending.sublist (List.tail_sublist _))
    · intro k member
      exact ordered.listed k (List.mem_of_mem_tail member)
    · have noOpening : openings (events ++ [.closeScope]) = openings events := by
        simp [openings_concat, Event.opening?]
      rw [noOpening]
      exact ordered.length

private theorem WellScoped.run (started : Builder.start location = .ok initial)
    (done : Progress.foldl (Builder.step call) initial events = { state := b }) :
    WellScoped events b := by
  obtain ⟨scopes, -, functions, -, -⟩ := start_eq_ok started
  have first : WellScoped [] initial := by
    refine ⟨?_, ?_, ?_⟩
    · simp [scopes]
    · simp [scopes]
    · simp [functions, openings]
  exact Progress.foldl_invariant first WellScoped.step done

/-- An event leaves the reports of all other functions alone. -/
theorem functions_step (done : b.step call event = { state := next }) {k : Nat}
    (other : b.affected event ≠ some k) :
    next.report.functions[k]? = b.report.functions[k]? := by
  cases event with
  | node visited rule =>
    obtain ⟨-, effect⟩ := effect_of_process done
    exact effect.elsewhere k other
  | openScope name place params =>
    obtain ⟨f, sum, -, -, rfl⟩ := openScope_eq_ok done
    have apart : k ≠ b.report.functions.length := fun same => other (congrArg some same.symm)
    rw [List.getElem?_append, List.getElem?_singleton]
    grind
  | closeScope =>
    cases done
    rfl

/-- A scope that is not open is not affected by an event, and is not opened by it. -/
theorem Settled.step {k : Nat} {f : FunctionReport R} (settled : Settled k f b)
    (done : b.step call event = { state := next }) : Settled k f next := by
  have below := (List.getElem?_eq_some_iff.mp settled.report).1
  cases event with
  | node visited rule =>
    have other : b.affected (.node visited rule) ≠ some k :=
      fun innermost => settled.closed (List.mem_of_mem_head? innermost)
    obtain ⟨-, effect⟩ := effect_of_process done
    exact ⟨(functions_step done other).trans settled.report, effect.scopes ▸ settled.closed⟩
  | openScope name place params =>
    have other : b.affected (.openScope name place params) ≠ some k :=
      fun new => Nat.ne_of_gt below (Option.some.inj new)
    have report := (functions_step done other).trans settled.report
    obtain ⟨g, sum, -, -, rfl⟩ := openScope_eq_ok done
    refine ⟨report, ?_⟩
    rw [List.mem_cons, not_or]
    exact ⟨Nat.ne_of_lt below, settled.closed⟩
  | closeScope =>
    cases done
    exact ⟨settled.report, fun member => settled.closed (List.mem_of_mem_tail member)⟩

private theorem Settled.run {k : Nat} {f : FunctionReport R} (settled : Settled k f b)
    (done : Progress.foldl (Builder.step call) b events = { state := next }) :
    Settled k f next :=
  Progress.foldl_invariant (motive := fun _ => Settled k f) settled Settled.step done

/-- **A closed scope is settled for good.** At every point of a run the positions on the stack
ascend from its bottom to its top, each of them is that of a function, so that there is a report for
the innermost scope, and there are no more of them than openings. An event changes the report of the
innermost open function if it is a node, adds one if it is an opening, and leaves all others alone.
After a scope has been closed its report stays what it was, at every later point, and the scope is
never on the stack again. -/
theorem closed_scopes_stay_settled {last : Builder R}
    (started : Builder.start location = .ok initial)
    (done : Progress.foldl (Builder.step call) initial events = { state := last }) :
    (∀ n, ∃ b, Progress.foldl (Builder.step call) initial (events.take n) = { state := b } ∧
      b.scopes.reverse.Pairwise (· < ·) ∧
      (∀ k ∈ b.scopes, k < b.report.functions.length) ∧
      (b.scopes ≠ [] → ∃ f, b.current? = some f) ∧
      b.scopes.length ≤ (openings (events.take n)).length) ∧
    ∀ before event after, events = before ++ event :: after →
      ∃ b next, Progress.foldl (Builder.step call) initial before = { state := b } ∧
        b.step call event = { state := next } ∧
        next.report.functions.length =
          b.report.functions.length + event.opening?.toList.length ∧
        (∀ k, b.affected event ≠ some k →
          next.report.functions[k]? = b.report.functions[k]?) ∧
        (event = .closeScope → ∀ k, b.scopes.head? = some k →
          ∀ m, ∃ later, Progress.foldl (Builder.step call) next (after.take m) =
              { state := later } ∧
            later.report.functions[k]? = b.report.functions[k]? ∧ k ∉ later.scopes) := by
  constructor
  · intro n
    rw [← List.take_append_drop n events] at done
    obtain ⟨b, reached, -⟩ := Progress.foldl_append_eq_ok.mp done
    have ordered := WellScoped.run started reached
    exact ⟨b, reached, ordered.ascending, ordered.listed, ordered.exists_current,
      ordered.depth_le⟩
  · rintro before event after rfl
    obtain ⟨b, reached, onward⟩ := Progress.foldl_append_eq_ok.mp done
    obtain ⟨next, stepped, rest⟩ := Progress.foldl_cons_eq_ok.mp onward
    have ordered := WellScoped.run started reached
    refine ⟨b, next, reached, stepped, ?_, fun k other => functions_step stepped other, ?_⟩
    · rw [(ordered.step stepped).length, ordered.length, openings_concat, List.length_append]
    · rintro rfl k innermost m
      obtain ⟨f, current, settled⟩ := ordered.settled_closeScope innermost
      rw [← List.take_append_drop m after] at rest
      obtain ⟨later, soFar, -⟩ := Progress.foldl_append_eq_ok.mp rest
      cases stepped
      have final := settled.run soFar
      refine ⟨later, soFar, ?_, final.closed⟩
      exact final.report.trans settled.report.symm

/-- The inner scope is closed while the outer one is open, and stays as it was when the outer one
takes another node. -/
theorem closed_scopes_stay_settled_nestedScopes :
    ∃ initial b last : Builder Binary64, Builder.start .null = .ok initial ∧
      Progress.foldl (Builder.step fun _ _ _ => .ok (.list [])) initial (nestedScopes.take 6) =
        { state := b } ∧
      Progress.foldl (Builder.step fun _ _ _ => .ok (.list [])) initial nestedScopes =
        { state := last } ∧
      b.scopes = [1, 0] ∧ last.report.functions[1]? = b.report.functions[1]? ∧
      1 ∉ last.scopes := by
  obtain ⟨initial, started⟩ : ∃ initial : Builder Binary64, Builder.start .null = .ok initial :=
    ⟨_, rfl⟩
  obtain ⟨last, done⟩ : ∃ last : Builder Binary64, Progress.foldl
      (Builder.step fun _ _ _ => .ok (.list [])) initial nestedScopes = { state := last } := by
    cases started
    exact ⟨_, rfl⟩
  obtain ⟨b, next, reached, stepped, -, -, closing⟩ :=
    (closed_scopes_stay_settled started done).2 (nestedScopes.take 6) .closeScope
      [.node (.int 3) branchRule] rfl
  have stack : b.scopes = [1, 0] := by
    cases started
    cases reached
    rfl
  obtain ⟨later, onward, same, closed⟩ := closing rfl 1 (by rw [stack]; rfl) 1
  have whole : Progress.foldl (Builder.step fun _ _ _ => .ok (.list [])) initial nestedScopes =
      { state := later } :=
    Progress.foldl_append_eq_ok.mpr
      ⟨b, reached, Progress.foldl_cons_eq_ok.mpr ⟨next, stepped, onward⟩⟩
  exact ⟨initial, b, later, started, reached, whole, stack, same, closed⟩

end SourceMetrics.Builder
