import Mathlib.Data.List.Basic
import Mathlib.Data.List.Nodup
import Mathlib.Algebra.BigOperators.Group.List.Basic
import Mathlib.Algebra.Order.BigOperators.Group.List
import Mathlib.Algebra.Order.Group.Int
import Mathlib.Algebra.GroupWithZero.Nat
import Mathlib.Algebra.Ring.Int.Defs

/-!
# Keyed tables

A table with a primary key: its rows in insertion order, no two with the same key. Each operation
has one lemma for the set of the rows, the row under a key, and the sum of a weight.
-/

open List

/-- Rows whose keys are pairwise distinct. -/
structure Table {κ ν : Type} (key : ν → κ) where
  rows : List ν
  /-- The primary key constraint. -/
  nodup_keys : (rows.map key).Nodup

namespace Table

variable {κ ν : Type} {key : ν → κ} {t : Table key} {v : ν} {w : ν → Int} {p : ν → Bool}

def empty : Table key := ⟨[], by simp⟩

/-- `SELECT … WHERE key = k`. -/
def get? [DecidableEq κ] (t : Table key) (k : κ) : Option ν := t.rows.find? fun v => decide (key v = k)

/-- `INSERT OR IGNORE`: a row whose key is taken leaves the table as it is. -/
def insert [DecidableEq κ] (t : Table key) (v : ν) : Table key :=
  if h : t.get? (key v) = none then
    ⟨t.rows ++ [v], by
      have hkey : ∀ w ∈ t.rows, key w ≠ key v := by simpa [get?] using h
      simpa [nodup_append, t.nodup_keys] using hkey⟩
  else t

def deleteWhere (t : Table key) (p : ν → Bool) : Table key :=
  ⟨t.rows.filter fun v => !p v, t.nodup_keys.sublist (filter_sublist.map key)⟩

/-- `UPDATE … SET f WHERE p`, for an update that leaves the key alone. -/
def updateWhere (t : Table key) (p : ν → Bool) (f : ν → ν) (hf : ∀ v, key (f v) = key v) :
    Table key :=
  ⟨t.rows.map fun v => if p v then f v else v, by
    have hkeys : key ∘ (fun v => if p v then f v else v) = key := by
      funext v
      by_cases h : p v <;> simp [h, hf]
    simpa [hkeys] using t.nodup_keys⟩

/-- `INSERT … ON CONFLICT DO UPDATE`: the row replaces the one that has its key. -/
def upsert [DecidableEq κ] (t : Table key) (v : ν) : Table key :=
  (t.deleteWhere fun w => decide (key w = key v)).insert v

def total (t : Table key) (w : ν → Int) : Int := (t.rows.map w).sum

theorem eq_of_key_eq {w : ν} (hv : v ∈ t.rows) (hw : w ∈ t.rows) (h : key v = key w) : v = w :=
  inj_on_of_nodup_map t.nodup_keys hv hw h

theorem ext_rows {t' : Table key} (h : t.rows = t'.rows) : t = t' := by
  cases t
  cases t'
  simpa using h

theorem deleteWhere_eq_self (h : ∀ v ∈ t.rows, p v = false) : t.deleteWhere p = t :=
  ext_rows (filter_eq_self.2 fun v hv => by simp [h v hv])

variable {f : ν → ν}

theorem updateWhere_eq_self (hf : ∀ v, key (f v) = key v) (h : ∀ v ∈ t.rows, p v = false) :
    t.updateWhere p f hf = t :=
  ext_rows ((map_congr_left fun v hv => by simp [h v hv]).trans (List.map_id _))

@[simp] theorem rows_empty : (empty : Table key).rows = [] := rfl

@[simp] theorem mem_rows_deleteWhere {w : ν} :
    w ∈ (t.deleteWhere p).rows ↔ w ∈ t.rows ∧ p w = false := by
  simp [deleteWhere]

variable {hf : ∀ v, key (f v) = key v}

@[simp] theorem mem_rows_updateWhere {w : ν} :
    w ∈ (t.updateWhere p f hf).rows ↔ ∃ v ∈ t.rows, (if p v then f v else v) = w := by
  simp [updateWhere]

section Keys

variable [DecidableEq κ] {t : Table key} {k : κ} {v w : ν} {p : ν → Bool}

theorem get?_eq_some : t.get? k = some v ↔ v ∈ t.rows ∧ key v = k := by
  constructor
  · intro h
    exact ⟨mem_of_find?_eq_some h, by simpa using find?_some h⟩
  · rintro ⟨hv, rfl⟩
    unfold get?
    cases h : t.rows.find? fun w => decide (key w = key v) with
    | none => simpa using find?_eq_none.1 h v hv
    | some w =>
      have hw : w ∈ t.rows := mem_of_find?_eq_some h
      have hk : key w = key v := by simpa using find?_some h
      rw [eq_of_key_eq hw hv hk]

theorem get?_key (hv : v ∈ t.rows) : t.get? (key v) = some v := get?_eq_some.2 ⟨hv, rfl⟩

theorem get?_eq_none : t.get? k = none ↔ ∀ v ∈ t.rows, key v ≠ k := by simp [get?]

@[simp] theorem get?_empty (k : κ) : (empty : Table key).get? k = none := rfl

theorem rows_insert (h : t.get? (key v) = none) : (t.insert v).rows = t.rows ++ [v] := by
  simp [insert, h]

theorem mem_rows_insert (h : t.get? (key v) = none) :
    w ∈ (t.insert v).rows ↔ w ∈ t.rows ∨ w = v := by
  simp [rows_insert h]

theorem mem_insert_of_key_ne (h : key w ≠ key v) : w ∈ (t.insert v).rows ↔ w ∈ t.rows := by
  by_cases hnew : t.get? (key v) = none
  · rw [mem_rows_insert hnew]
    exact or_iff_left fun heq => h (congrArg key heq)
  · simp [insert, hnew]

theorem get?_insert (h : t.get? (key v) = none) (k : κ) :
    (t.insert v).get? k = if key v = k then some v else t.get? k := by
  by_cases hk : key v = k
  · subst hk
    rw [if_pos rfl, get?_eq_some, mem_rows_insert h]
    exact ⟨.inr rfl, rfl⟩
  · simp [get?, rows_insert h, hk]

theorem get?_deleteWhere_eq_some :
    (t.deleteWhere p).get? k = some v ↔ t.get? k = some v ∧ p v = false := by
  simp [get?_eq_some, and_right_comm]

theorem get?_deleteWhere_of_spares (hp : ∀ v, key v = k → p v = false) :
    (t.deleteWhere p).get? k = t.get? k := by
  cases hg : t.get? k with
  | none =>
    rw [get?_eq_none] at hg ⊢
    exact fun v hv => hg v (mem_rows_deleteWhere.1 hv).1
  | some v => exact get?_deleteWhere_eq_some.2 ⟨hg, hp v (get?_eq_some.1 hg).2⟩

theorem get?_deleteWhere_key (t : Table key) (k : κ) :
    (t.deleteWhere fun w => decide (key w = k)).get? k = none :=
  get?_eq_none.2 fun _ hw => by simpa using (mem_rows_deleteWhere.1 hw).2

theorem get?_upsert (k : κ) : (t.upsert v).get? k = if key v = k then some v else t.get? k := by
  rw [upsert, get?_insert (get?_deleteWhere_key t (key v))]
  by_cases hk : key v = k
  · simp [hk]
  · rw [if_neg hk, if_neg hk, get?_deleteWhere_of_spares]
    exact fun w hw => by simp [hw, Ne.symm hk]

@[simp] theorem mem_rows_upsert : w ∈ (t.upsert v).rows ↔ (w ∈ t.rows ∧ key w ≠ key v) ∨ w = v := by
  simp [upsert, mem_rows_insert (get?_deleteWhere_key t (key v))]

@[simp] theorem get?_updateWhere (k : κ) :
    (t.updateWhere p f hf).get? k = (t.get? k).map fun v => if p v then f v else v := by
  have hk : ∀ v, key (if p v then f v else v) = key v := by
    intro v
    by_cases h : p v <;> simp [h, hf]
  simp only [get?, updateWhere, List.find?_map, Function.comp_def, hk]

end Keys

@[simp] theorem total_empty (w : ν → Int) : (empty : Table key).total w = 0 := rfl

@[simp] theorem total_zero (t : Table key) : (t.total fun _ => 0) = 0 := by simp [total]

theorem total_insert [DecidableEq κ] (h : t.get? (key v) = none) (w : ν → Int) :
    (t.insert v).total w = t.total w + w v := by
  simp [total, rows_insert h]

theorem total_deleteWhere (t : Table key) (p : ν → Bool) (w : ν → Int) :
    (t.deleteWhere p).total w = t.total w - t.total fun v => if p v then w v else 0 := by
  simp only [total, deleteWhere]
  induction t.rows with
  | nil => simp
  | cons v vs ih =>
    by_cases h : p v
    · simp [h, ih]
    · simp only [h, filter_cons, map_cons, sum_cons, Bool.not_false, if_true,
        Bool.false_eq_true, if_false]
      omega

/-- An update changes the total by what it changes on the rows it touches. -/
theorem total_updateWhere (t : Table key) (p : ν → Bool) (f : ν → ν)
    (hf : ∀ v, key (f v) = key v) (w : ν → Int) : (t.updateWhere p f hf).total w =
      t.total w + t.total fun v => if p v then w (f v) - w v else 0 := by
  simp only [total, updateWhere, List.map_map]
  induction t.rows with
  | nil => simp
  | cons v vs ih => by_cases h : p v <;> simp [h] <;> omega

/-- A weight that is zero away from one key sums to the weight of the row under that key. -/
theorem total_eq_of_key [DecidableEq κ] (t : Table key) (k : κ) (w : ν → Int)
    (hw : ∀ v, key v ≠ k → w v = 0) :
    t.total w = ((t.get? k).map w).getD 0 := by
  obtain ⟨rs, hnd⟩ := t
  unfold total get?
  induction rs with
  | nil => rfl
  | cons v vs ih =>
    rw [map_cons, nodup_cons] at hnd
    by_cases h : key v = k
    · have hvs : ∀ u ∈ vs, w u = 0 := fun u hu => hw u fun huk =>
        hnd.1 (List.mem_map.2 ⟨u, hu, huk.trans h.symm⟩)
      have hsm : (vs.map w).sum = 0 := sum_eq_zero (by simpa using hvs)
      simp [h, hsm]
    · simp [h, hw v h, ih hnd.2]

theorem total_congr {w' : ν → Int} (h : ∀ v ∈ t.rows, w v = w' v) : t.total w = t.total w' := by
  unfold total
  rw [map_congr_left h]

theorem total_deleteWhere_of_mem [DecidableEq κ] (hv : v ∈ t.rows)
    (hp : ∀ u ∈ t.rows, p u = true ↔ u = v) (w : ν → Int) :
    (t.deleteWhere p).total w = t.total w - w v := by
  have hwg : t.total (fun u => if p u then w u else 0) =
      t.total fun u => if key u = key v then w u else 0 := by
    refine total_congr fun u hu => ?_
    have hk : p u = true ↔ key u = key v := (hp u hu).trans ⟨fun h => h ▸ rfl, eq_of_key_eq hu hv⟩
    simp [hk]
  rw [total_deleteWhere, hwg, total_eq_of_key t (key v) _ fun u hu => if_neg hu, get?_key hv]
  simp

theorem total_ite (t : Table key) (p : ν → Prop) [DecidablePred p] (w : ν → Nat) :
    (t.total fun v => if p v then (w v : Int) else 0) = ((t.rows.filter (p ·)).map w).sum := by
  unfold total
  induction t.rows with
  | nil => rfl
  | cons v vs ih => by_cases h : p v <;> simp [h, ih]

theorem total_nonneg (h : ∀ v ∈ t.rows, 0 ≤ w v) : 0 ≤ t.total w := sum_nonneg (by simpa using h)

end Table
