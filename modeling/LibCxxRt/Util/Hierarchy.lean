import Mathlib.Tactic.Common

/-!
This module contains class hierarchies with multiple and virtual inheritance: the subobjects that an
object consists of, and the rules for the conversions between them.
-/

namespace Util

/--
A subobject of an object: one of its virtual bases or the object as a whole, and the numbers of the
non-virtual bases on the way from there.
-/
structure Subobject (ι : Type) where
  virtualBase : Option ι
  steps : List Nat
  deriving DecidableEq, Repr

namespace Subobject

def whole {ι : Type} : Subobject ι :=
  ⟨none, []⟩

end Subobject

-- the types are those of the classes, of their bases and of the identities of classes
structure Hierarchy (α β ι : Type) where
  bases : α → List β
  type : β → α
  isVirtual : β → Bool
  isPublic : β → Bool
  id : α → ι

namespace Hierarchy

variable {α β ι : Type} (H : Hierarchy α β ι)

-- the subobject for the base `b` with the number `i`, all paths share a virtual base
def step (k : Subobject ι) (i : Nat) (b : β) : Subobject ι :=
  if H.isVirtual b then
    ⟨some (H.id (H.type b)), []⟩
  else
    ⟨k.virtualBase, k.steps ++ [i]⟩

-- a path of bases from the subobject `k` of class `c`, one of public bases if `pub` is set
inductive Path (pub : Bool) : α → Subobject ι → α → Subobject ι → Prop where
  | refl (c : α) (k : Subobject ι) : Path pub c k c k
  | step {c c' : α} {k k' : Subobject ι} {i : Nat} {b : β} (hb : (H.bases c)[i]? = some b)
      (hpub : pub = true → H.isPublic b = true)
      (hrest : Path pub (H.type b) (H.step k i b) c' k') : Path pub c k c' k'

-- the subobject `k` of class `c` has the base subobject `k'` of class `d`
def Has (pub : Bool) (c : α) (k : Subobject ι) (d : ι) (k' : Subobject ι) : Prop :=
  ∃ c', H.Path pub c k c' k' ∧ H.id c' = d

-- an object of class `c` is converted to its subobject `k` of class `d`
def PublicBase (c : α) (d : ι) (k : Subobject ι) : Prop :=
  H.id c = d ∧ k = .whole
    ∨ H.Has true c .whole d k ∧ ∀ k', H.Has false c .whole d k' → k' = k

def Inaccessible (c : α) (d : ι) : Prop :=
  (∃ k, H.Has false c .whole d k) ∧ ∀ k, ¬ H.Has true c .whole d k

def Ambiguous (c : α) (d : ι) : Prop :=
  ∃ k k', H.Has false c .whole d k ∧ H.Has false c .whole d k' ∧ k ≠ k'

-- the subobject `k` of class `d` in an object of class `c` has the public base `s` of class `src`
def Contains (c : α) (src : ι) (s : Subobject ι) (d : ι) (k : Subobject ι) : Prop :=
  ∃ c', H.Path false c .whole c' k ∧ H.id c' = d ∧ H.Has true c' k src s

/--
The dynamic cast from the subobject `s` of class `src` to the class `d` in an object of class `c`: to
the subobject that contains `s` or, if there is not exactly one, to the base of the whole object.
-/
inductive DynamicCast (c : α) (src : ι) (s : Subobject ι) (d : ι) : Option (Subobject ι) → Prop where
  | down {k : Subobject ι} (hk : H.Contains c src s d k)
      (hunique : ∀ k', H.Contains c src s d k' → k' = k) : DynamicCast c src s d (some k)
  | cross {k : Subobject ι} (hdown : ¬ ∃! k, H.Contains c src s d k)
      (hs : H.Has true c .whole src s) (hk : H.PublicBase c d k) : DynamicCast c src s d (some k)
  | none (hdown : ¬ ∃! k, H.Contains c src s d k)
      (hcross : ¬ (H.Has true c .whole src s ∧ ∃ k, H.PublicBase c d k)) :
      DynamicCast c src s d none

variable {H} {c c' : α} {src d : ι} {s k k' : Subobject ι} {pub : Bool}

theorem Path.ofPublic (h : H.Path true c k c' k')
    : H.Path false c k c' k' := by
  induction h with
  | refl c k => exact .refl c k
  | step hb _ _ ih => exact .step hb (by simp) ih

theorem Has.ofPublic (h : H.Has true c k d k')
    : H.Has false c k d k' := by
  rcases h with ⟨c', hpath, hid⟩
  exact ⟨c', hpath.ofPublic, hid⟩

theorem Contains.has (h : H.Contains c src s d k)
    : H.Has false c .whole d k := by
  rcases h with ⟨c', hpath, hid, _⟩
  exact ⟨c', hpath, hid⟩

theorem PublicBase.has (h : H.PublicBase c d k)
    : H.Has false c .whole d k := by
  rcases h with ⟨hid, hwhole⟩ | ⟨hpublic, _⟩
  . subst hwhole
    exact ⟨c, .refl .., hid⟩
  . exact hpublic.ofPublic

theorem publicBase_iff (hid : H.id c ≠ d)
    : (∃ k, H.PublicBase c d k)
        ↔
      (∃ k, H.Has false c .whole d k) ∧ ¬ H.Inaccessible c d ∧ ¬ H.Ambiguous c d := by
  constructor
  . rintro ⟨k, ⟨heq, _⟩ | ⟨hpublic, hunique⟩⟩
    . contradiction
    . refine ⟨⟨k, hpublic.ofPublic⟩, ?_, ?_⟩
      . rintro ⟨_, hnone⟩
        exact hnone k hpublic
      . rintro ⟨k', k'', hk', hk'', hne⟩
        exact hne ((hunique k' hk').trans (hunique k'' hk'').symm)
  . rintro ⟨hbase, haccess, hambiguous⟩
    have hpublic : ∃ k, H.Has true c .whole d k := by
      by_contra hnone
      exact haccess ⟨hbase, fun k hk => hnone ⟨k, hk⟩⟩
    rcases hpublic with ⟨k, hpublic⟩
    refine ⟨k, .inr ⟨hpublic, ?_⟩⟩
    intro k' hk'
    by_contra hne
    exact hambiguous ⟨k', k, hk', hpublic.ofPublic, hne⟩

theorem PublicBase.unique (hk : H.PublicBase c d k) (hk' : H.PublicBase c d k')
    : k = k' := by
  rcases hk with ⟨hid, hwhole⟩ | ⟨hpublic, hunique⟩
  . rcases hk' with ⟨_, hwhole'⟩ | ⟨_, hunique'⟩
    . rw [hwhole, hwhole']
    . exact hunique' k ⟨c, by rw [hwhole]; exact .refl .., hid⟩
  . exact (hunique k' hk'.has).symm

theorem exists_dynamicCast (H : Hierarchy α β ι) (c : α) (src : ι) (s : Subobject ι) (d : ι)
    : ∃ r, H.DynamicCast c src s d r := by
  by_cases hdown : ∃! k, H.Contains c src s d k
  . rcases hdown with ⟨k, hk, hunique⟩
    exact ⟨some k, .down hk hunique⟩
  . by_cases hcross : H.Has true c .whole src s ∧ ∃ k, H.PublicBase c d k
    . rcases hcross with ⟨hs, k, hk⟩
      exact ⟨some k, .cross hdown hs hk⟩
    . exact ⟨none, .none hdown hcross⟩

theorem DynamicCast.has (h : H.DynamicCast c src s d (some k))
    : H.Has false c .whole d k := by
  cases h with
  | down hk _ => exact hk.has
  | cross _ _ hk => exact hk.has

theorem DynamicCast.unique {r r' : Option (Subobject ι)} (h : H.DynamicCast c src s d r)
    (h' : H.DynamicCast c src s d r')
    : r = r' := by
  cases h with
  | down hk hunique =>
    cases h' with
    | down hk' _ => rw [hunique _ hk']
    | cross hdown => exact absurd ⟨_, hk, hunique⟩ hdown
    | none hdown => exact absurd ⟨_, hk, hunique⟩ hdown
  | cross hdown hs hk =>
    cases h' with
    | down hk' hunique => exact absurd ⟨_, hk', hunique⟩ hdown
    | cross _ _ hk' => rw [hk.unique hk']
    | none _ hcross => exact absurd ⟨hs, _, hk⟩ hcross
  | none hdown hcross =>
    cases h' with
    | down hk' hunique => exact absurd ⟨_, hk', hunique⟩ hdown
    | cross _ hs hk' => exact absurd ⟨hs, _, hk'⟩ hcross
    | none => rfl

/--
A search that takes the first subobject of class `d` finds the result of the dynamic cast exactly if
that is the only one to contain `s`, or the one of the whole object.
-/
theorem dynamicCast_iff {first : Option (Subobject ι)}
    (hsome : ∀ k, first = some k → H.Has false c .whole d k)
    (hnone : first = none → ∀ k, ¬ H.Has false c .whole d k)
    (hwhole : H.id c = d → first = some .whole)
    : H.DynamicCast c src s d first
        ↔
      (∀ k, ¬ H.Has false c .whole d k)
        ∨ (∃ k, first = some k ∧ H.Contains c src s d k ∧ ∀ k', H.Contains c src s d k' → k' = k)
        ∨ H.Has true c .whole src s ∧ ∃ k, H.PublicBase c d k := by
  constructor
  . rintro (⟨hk, hunique⟩ | ⟨hdown, hs, hk⟩ | ⟨hdown, hcross⟩)
    . exact .inr (.inl ⟨_, rfl, hk, hunique⟩)
    . exact .inr (.inr ⟨hs, _, hk⟩)
    . exact .inl (hnone rfl)
  . rintro (hno | ⟨k, hfirst, hk, hunique⟩ | ⟨hs, k, hk⟩)
    . cases first with
      | some k => exact absurd (hsome k rfl) (hno k)
      | none =>
        refine .none ?_ ?_
        . rintro ⟨k, hk, _⟩
          exact hno k hk.has
        . rintro ⟨_, k, hk⟩
          exact hno k hk.has
    . rw [hfirst]
      exact .down hk hunique
    . have hfirst : first = some k := by
        rcases hk with ⟨hid, hk⟩ | ⟨hpublic, hunique⟩
        . rw [hk, hwhole hid]
        . cases hfirst : first with
          | none => exact absurd hpublic.ofPublic (hnone hfirst k)
          | some k' => rw [hunique k' (hsome k' hfirst)]
      rw [hfirst]
      by_cases hdown : ∃! k', H.Contains c src s d k'
      . rcases hdown with ⟨k', hk', hunique'⟩
        have heq : k' = k := by
          rcases hk with ⟨hid, hk⟩ | ⟨_, hunique⟩
          . rw [hk]
            exact (hunique' _ ⟨c, .refl .., hid, hs⟩).symm
          . exact hunique k' hk'.has
        subst heq
        exact .down hk' hunique'
      . exact .cross hdown hs hk

end Hierarchy

end Util
