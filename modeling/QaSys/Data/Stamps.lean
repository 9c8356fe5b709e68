import Mathlib.Logic.Function.Basic
import Mathlib.Data.List.Basic
import Mathlib.Algebra.Order.Ring.Int

/-! The times at which the rows of a table were made and last changed, kept beside the table. -/

namespace QaSys

structure Stamp where
  created : Int
  updated : Option Int
  deriving DecidableEq

def Stamp.touch (st : Stamp) (now : Int) : Stamp := { st with updated := some now }

abbrev Stamps := Int → Option Stamp

namespace Stamps

variable {m m' : Stamps} {rows rows' : List (Int × Stamp)} {id now : Int}

def add (m : Stamps) (id now : Int) : Stamps := Function.update m id (some ⟨now, none⟩)

def touch (m : Stamps) (id now : Int) : Stamps :=
  Function.update m id ((m id).map (·.touch now))

def Fits (m : Stamps) (rows : List (Int × Stamp)) : Prop := ∀ p ∈ rows, m p.1 = some p.2

/-- Everything recorded has happened, and no change before the row was made. -/
def Past (m : Stamps) (now : Int) : Prop := ∀ id st, m id = some st →
  st.created ≤ now ∧ ∀ t ∈ st.updated, st.created ≤ t ∧ t ≤ now

def Grows (m m' : Stamps) (rows : List (Int × Stamp)) : Prop := ∀ p ∈ rows, ∀ st, m p.1 = some st →
  ∃ st', m' p.1 = some st' ∧ ∀ t ∈ st.updated, ∃ t' ∈ st'.updated, t ≤ t'

def Ordered (rows : List (Int × Stamp)) : Prop := ∀ p ∈ rows, ∀ t ∈ p.2.updated, p.2.created ≤ t

/-- No row lost its time of change or had it set back. -/
def Advanced (rows rows' : List (Int × Stamp)) : Prop := ∀ p ∈ rows, ∀ p' ∈ rows', p'.1 = p.1 →
  ∀ t ∈ p.2.updated, ∃ t' ∈ p'.2.updated, t ≤ t'

theorem Fits.ordered (h : Fits m rows) (hp : Past m now) : Ordered rows := fun p hm t ht =>
  ((hp p.1 p.2 (h p hm)).2 t ht).1

theorem Fits.advanced (h : Fits m rows) (h' : Fits m' rows') (hg : Grows m m' rows) :
    Advanced rows rows' := by
  intro p hp p' hp' hid t ht
  obtain ⟨st', hst', hlater⟩ := hg p hp p.2 (h p hp)
  have hsame : some st' = some p'.2 := by rw [← hst', ← hid, h' p' hp']
  cases hsame
  exact hlater t ht

theorem Fits.sublist (h : Fits m rows) (hsub : rows'.Sublist rows) : Fits m rows' :=
  fun p hp => h p (hsub.subset hp)

theorem fits_add {st : Stamp} (h : Fits m rows) (hnew : id ∉ rows.map Prod.fst) :
    Fits (m.add id now) (rows ++ [(id, st)]) ↔ st = ⟨now, none⟩ := by
  have hold : ∀ p ∈ rows, m.add id now p.1 = some p.2 := fun p hp => by
    rw [add, Function.update_of_ne, h p hp]
    exact fun he => hnew (he ▸ List.mem_map_of_mem hp)
  constructor
  · intro hfit
    have hrow := hfit (id, st) (List.mem_append_right _ (List.mem_singleton_self _))
    rw [add, Function.update_self, Option.some.injEq] at hrow
    exact hrow.symm
  · rintro rfl p hp
    rcases List.mem_append.mp hp with hp | hp
    · exact hold p hp
    · rw [List.mem_singleton.mp hp, add, Function.update_self]

theorem fits_touch {α : Type*} {stamped : α → Int × Stamp} {rows : List α} {f : α → α}
    (h : Fits m (rows.map stamped)) (hf : ∀ r ∈ rows, stamped (f r) =
      if (stamped r).1 = id then ((stamped r).1, (stamped r).2.touch now) else stamped r) :
    Fits (m.touch id now) ((rows.map f).map stamped) := by
  rw [Fits, List.forall_mem_map] at h
  rw [Fits, List.forall_mem_map, List.forall_mem_map]
  intro r hr
  rw [hf r hr]
  split
  next he => rw [touch, ← he, Function.update_self, h r hr, Option.map_some]
  next hne => rw [touch, Function.update_of_ne hne, h r hr]

theorem Past.mono {now' : Int} (h : Past m now) (hle : now ≤ now') : Past m now' :=
  fun id st hst => ⟨(h id st hst).1.trans hle, fun t ht => ⟨((h id st hst).2 t ht).1,
    ((h id st hst).2 t ht).2.trans hle⟩⟩

theorem Past.add (h : Past m now) (id : Int) : Past (m.add id now) now := by
  intro i st hst
  by_cases hi : i = id
  · subst hi
    rw [Stamps.add, Function.update_self] at hst
    cases hst
    exact ⟨le_rfl, nofun⟩
  · rw [Stamps.add, Function.update_of_ne hi] at hst
    exact h i st hst

theorem Past.touch (h : Past m now) (id : Int) : Past (m.touch id now) now := by
  intro i st hst
  by_cases hi : i = id
  · subst hi
    rw [Stamps.touch, Function.update_self, Option.map_eq_some_iff] at hst
    obtain ⟨st', hst', rfl⟩ := hst
    have hmade := (h i st' hst').1
    refine ⟨hmade, fun t ht => ?_⟩
    cases ht
    exact ⟨hmade, le_rfl⟩
  · rw [Stamps.touch, Function.update_of_ne hi] at hst
    exact h i st hst

theorem Grows.refl : Grows m m rows := fun _ _ st hst => ⟨st, hst, fun t ht => ⟨t, ht, le_rfl⟩⟩

theorem grows_add (hnew : id ∉ rows.map Prod.fst) : Grows m (m.add id now) rows := by
  intro p hp st hst
  refine ⟨st, ?_, fun t ht => ⟨t, ht, le_rfl⟩⟩
  rw [add, Function.update_of_ne, hst]
  exact fun he => hnew (he ▸ List.mem_map_of_mem hp)

theorem grows_touch (h : Past m now) : Grows m (m.touch id now) rows := by
  intro p _ st hst
  by_cases hp : p.1 = id
  · refine ⟨st.touch now, ?_, fun t ht => ⟨now, rfl, ((h p.1 st hst).2 t ht).2⟩⟩
    rw [touch, ← hp, Function.update_self, hst, Option.map_some]
  · exact ⟨st, by rw [touch, Function.update_of_ne hp, hst], fun t ht => ⟨t, ht, le_rfl⟩⟩

end Stamps

end QaSys
