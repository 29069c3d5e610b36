import CommandLine.Value
import Mathlib.Logic.Basic

/-!
# Equality of values

Paths are compared by their steps and numbers as numbers, so two values can be the same and be
written differently.  Being the same is symmetric and transitive all the same.
-/

namespace CommandLine

theorem FloatFormat.sameNumber_comm (f : FloatFormat) (a b : Nat) :
    f.sameNumber a b = f.sameNumber b a := by
  unfold sameNumber
  rw [Bool.and_comm (!f.isNaN a), Bool.and_comm (f.isZero a), BEq.comm (a := a)]

theorem FloatFormat.sameNumber_trans {f : FloatFormat} {a b c : Nat}
    (hfirst : f.sameNumber a b = true) (hsecond : f.sameNumber b c = true) :
    f.sameNumber a c = true := by
  simp only [sameNumber, Bool.and_eq_true, Bool.or_eq_true, beq_iff_eq] at hfirst hsecond ⊢
  obtain ⟨⟨hleft, -⟩, hequal | ⟨hzero, hother⟩⟩ := hfirst
  · exact ⟨⟨hleft, hsecond.1.2⟩, hequal ▸ hsecond.2⟩
  · obtain ⟨⟨-, hright⟩, rfl | ⟨-, hlast⟩⟩ := hsecond
    · exact ⟨⟨hleft, hright⟩, .inr ⟨hzero, hother⟩⟩
    · exact ⟨⟨hleft, hright⟩, .inr ⟨hzero, hlast⟩⟩

namespace Value

theorem same_comm (a b : Value) : a.same b = b.same a := by
  cases a <;> cases b <;> try simp [Value.same, Path.same, BEq.comm]
  case float.float f _ g _ =>
      by_cases hformat : f = g
      · subst g
        rw [FloatFormat.sameNumber_comm]
      · rw [beq_false_of_ne hformat, Bool.false_and, Bool.false_and]

/-- Only paths and numbers are the same without being written alike. -/
theorem same_cases {a b : Value} (hsame : a.same b = true) :
    a = b ∨ (∃ s t, a = .path s ∧ b = .path t ∧ Path.same s t = true) ∨
      ∃ f m n, a = .float f m ∧ b = .float f n ∧ f.sameNumber m n = true := by
  cases a with
  | path s =>
      cases b with
      | path t => exact .inr (.inl ⟨s, t, rfl, rfl, hsame⟩)
      | _ => simp [same] at hsame
  | float f m =>
      cases b with
      | float g n =>
          obtain ⟨hformat, hnumber⟩ := Bool.and_eq_true_iff.mp hsame
          obtain rfl := beq_iff_eq.mp hformat
          exact .inr (.inr ⟨f, m, n, rfl, rfl, hnumber⟩)
      | _ => simp [same] at hsame
  | _ => exact .inl (by simpa [same] using hsame)

theorem same_trans {a b c : Value} (hfirst : a.same b = true) (hsecond : b.same c = true) :
    a.same c = true := by
  rcases same_cases hfirst with rfl | ⟨s, t, rfl, rfl, hsteps⟩ | ⟨f, m, n, rfl, rfl, hnumber⟩
  · exact hsecond
  · rcases same_cases hsecond with rfl | ⟨u, v, hu, rfl, hothers⟩ | ⟨f, m, n, hfloat, -⟩
    · exact hfirst
    · obtain rfl := Value.path.inj hu
      exact beq_iff_eq.mpr ((beq_iff_eq.mp hsteps).trans (beq_iff_eq.mp hothers))
    · contradiction
  · rcases same_cases hsecond with rfl | ⟨u, v, hpath, -⟩ | ⟨g, k, l, hfloat, rfl, hother⟩
    · exact hfirst
    · contradiction
    · obtain ⟨rfl, rfl⟩ := Value.float.inj hfloat
      exact Bool.and_eq_true_iff.mpr ⟨beq_self_eq_true f, FloatFormat.sameNumber_trans hnumber hother⟩

end Value

end CommandLine
