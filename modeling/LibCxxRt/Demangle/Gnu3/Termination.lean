import LibCxxRt.Demangle.Gnu3.Lemmas.Run

/-!
This module determines that the recursion of the demangler ends, and what a run leaves in its tables.
-/

namespace LibCxxRt

namespace Demangle

namespace Gnu3

instance tidy_demangle (env : Env)
    : (tidy env.org.strlen).Keeps 0 (demangle env (env.org.strlen + 2)) := by
  have : (parsers (env.org.strlen + 2)).Keeps env.org.strlen 0 := by
    apply parsers_keeps
    omega
  unfold demangle
  infer_instance

theorem demangle_runs (env : Env)
    : (tidy env.org.strlen).Runs 0 (tidy env.org.strlen).rel (demangle env (env.org.strlen + 2)) :=
  (tidy_demangle env).runs

/--
Whatever the mangled name is and whichever calls of `malloc` fail, the recursion of the demangler is not deeper
than the mangled name is long, up to two levels.
-/
theorem cxaDemangleGnu3_ne_outOfFuel (env : Env) : cxaDemangleGnu3 env ≠ .error .outOfFuel := by
  intro h
  unfold cxaDemangleGnu3 at h
  split at h
  . cases h
  . cases h
  . next s hm =>
    cases h
    exact (demangle_runs env).of_error (Nat.le_refl _) hm rfl

/--
When the demangler has succeeded in parsing the name, the tables have no string that is the beginning of one
before it, and each command and each class has been removed again. If it fails in the middle of the template
arguments of a name, it does not come to the end of the command that it has pushed for them.
-/
theorem tidy_of_demangle {env : Env} {s : Option CString} {d : CppDemangleData}
    (h : demangle env (env.org.strlen + 2) (initial env) = .ok (s, d))
    : d.env = env ∧ Tidy d := by
  rcases (demangle_runs env).of_ok (Nat.le_refl _) h with ⟨henv, htidy⟩
  exact ⟨henv, htidy (tidy_initial env)⟩

-- there are four substitutions and one template argument in the end
theorem tidy_of_demangle_foo
    : let env := Env.plain (lit "_Z3fooIiEvT_PKS0_")
      ∃ s d, demangle env 19 (initial env) = .ok (s, d)
        ∧ (d.subst.items.length = 4 ∧ d.tmpl.items.length = 1) ∧ d.env = env ∧ Tidy d := by
  intro env
  have hok : ((demangle env 19 (initial env)).toOption.any fun r =>
      r.2.subst.items.length == 4 && r.2.tmpl.items.length == 1) = true := by
    decide +kernel
  cases h : demangle env 19 (initial env) with
  | error e =>
    rw [h] at hok
    cases hok
  | ok r =>
    rw [h] at hok
    refine ⟨r.1, r.2, rfl, ?_, tidy_of_demangle h⟩
    simpa [Except.toOption] using hok

/--
What a name, a type, an expression or an encoding leaves when it has been read, from any state on: the cursor
is not before the one at the start, the tables of substitutions and of template arguments have got new
strings behind the old ones only, none of which is the beginning of one there, the stacks are as before.
-/
theorem extends_of_parsers {n : Nat} {d d' : CppDemangleData} (hn : d.env.org.strlen < d.cur + n)
    (h : (∃ u, (parsers (n + 1)).readName d = .ok (u, d'))
      ∨ (∃ f td, (parsers (n + 1)).readTypeAgain f d = .ok (td, d'))
      ∨ (∃ u, (parsers (n + 1)).readExpression d = .ok (u, d'))
      ∨ (∃ u, (parsers (n + 1)).readEncoding d = .ok (u, d')))
    : Extends d d' := by
  have hp := parsers_keeps n hn
  rcases h with ⟨u, h⟩ | ⟨f, td, h⟩ | ⟨u, h⟩ | ⟨u, h⟩
  . exact hp.readName.runs.of_ok (behind_self d) h
  . exact (hp.readTypeAgain f).runs.of_ok (behind_self d) h
  . exact hp.readExpression.runs.of_ok (behind_self d) h
  . exact hp.readEncoding.runs.of_ok (behind_self d) h

-- the name and its template instance become substitutions, the argument is kept for `T_`
theorem extends_of_parsers_foo
    : let start := { initial (.plain (lit "_Z3fooIiEvT_PKS0_")) with cur := 2 }
      ∃ u d, (parsers 19).readEncoding start = .ok (u, d)
        ∧ (d.subst.items.length = 2 ∧ d.tmpl.items.length = 1) ∧ Extends start d := by
  intro start
  have hok : (((parsers 19).readEncoding start).toOption.any fun r =>
      r.2.subst.items.length == 2 && r.2.tmpl.items.length == 1) = true := by
    decide +kernel
  cases h : (parsers 19).readEncoding start with
  | error e =>
    rw [h] at hok
    cases hok
  | ok r =>
    rw [h] at hok
    refine ⟨r.1, r.2, rfl, ?_, ?_⟩
    . simpa [Except.toOption] using hok
    . exact extends_of_parsers (n := 18) (by decide) (.inr (.inr (.inr ⟨r.1, h⟩)))

end Gnu3

end Demangle

end LibCxxRt
