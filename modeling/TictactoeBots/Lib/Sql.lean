import Mathlib

/-!
Enough SQL to read queries off: three-valued conditions, `WHERE`, `COUNT(*)`,
inner joins and `EXISTS`, over tables that are lists of rows.

A column value is an `Option`, `none` being `NULL`, and a condition is an
`Option Bool`, `none` being unknown; a row is kept when its condition is true,
so the lemmas rewrite `holds` of a condition to a Boolean. A join along a
foreign key finds at most one row of the referenced table, because the key is
unique there. At the end, counts that are summed over another table are
exchanged with sums of counts.
-/

namespace Sql

variable {α β κ : Type*}

abbrev Truth := Option Bool

/-- `a = b`; unknown when either is `NULL`. -/
def eq [DecidableEq κ] (a b : Option κ) : Truth :=
  a.bind fun x => b.map fun y => decide (x = y)

def ne [DecidableEq κ] (a b : Option κ) : Truth :=
  a.bind fun x => b.map fun y => decide (x ≠ y)

def isNull (a : Option κ) : Truth := some a.isNone

/-- `a IN (v, ...)` over a list of literals. -/
def isIn [DecidableEq κ] (a : Option κ) (values : List κ) : Truth :=
  a.map fun x => decide (x ∈ values)

def and : Truth → Truth → Truth
  | some false, _ => some false
  | _, some false => some false
  | some true, q => q
  | none, _ => none

def or : Truth → Truth → Truth
  | some true, _ => some true
  | _, some true => some true
  | some false, q => q
  | none, _ => none

def not (p : Truth) : Truth := p.map fun b => !b

/-- Whether a `WHERE` or `ON` clause keeps the row. -/
def holds (p : Truth) : Bool := p == some true

/-- The rows a `WHERE` clause keeps. -/
def select (rows : List α) (p : α → Truth) : List α := rows.filter fun r => holds (p r)

/-- `SELECT COUNT(*) ... WHERE p`. -/
def count (rows : List α) (p : α → Truth) : ℕ := rows.countP fun r => holds (p r)

/-- `left JOIN right ON on`. -/
def join (left : List α) (right : List β) (on : α → β → Truth) : List (α × β) :=
  left.flatMap fun a => (select right (on a)).map fun b => (a, b)

/-- `left LEFT OUTER JOIN right ON on`; `none` stands for the row of `NULL`s. -/
def leftJoin (left : List α) (right : List β) (on : α → β → Truth) : List (α × Option β) :=
  left.flatMap fun a =>
    match select right (on a) with
    | [] => [(a, none)]
    | found => found.map fun b => (a, some b)

/-- `ORDER BY key`, the rows being returned in the order given where the keys
are the same. -/
def orderBy {κ : Type*} [LinearOrder κ] (rows : List α) (key : α → κ) : List α :=
  rows.insertionSort fun a b => key a ≤ key b

/-- `SELECT key, max(value) FROM rows GROUP BY key`. -/
def groupMax [DecidableEq κ] (rows : List α) (key : α → κ) (value : α → ℕ) :
    List (κ × Option ℕ) :=
  (rows.map key).dedup.map fun k => (k, ((rows.filter fun r => key r = k).map value).max?)

/-- `EXISTS (SELECT 1 FROM rows WHERE p)`, which is never unknown. -/
def existsRow (rows : List α) (p : α → Truth) : Truth := some (rows.any fun r => holds (p r))

/-! ### Conditions -/

@[simp] theorem holds_none : holds none = false := rfl

@[simp] theorem holds_some (b : Bool) : holds (some b) = b := by
  cases b <;> rfl

@[simp] theorem holds_and (p q : Truth) : holds (and p q) = (holds p && holds q) := by
  rcases p with _ | _ | _ <;> rcases q with _ | _ | _ <;> rfl

@[simp] theorem holds_or (p q : Truth) : holds (or p q) = (holds p || holds q) := by
  rcases p with _ | _ | _ <;> rcases q with _ | _ | _ <;> rfl

@[simp] theorem holds_isNull (a : Option κ) : holds (isNull a) = a.isNone := by
  cases a <;> rfl

@[simp] theorem not_some (b : Bool) : not (some b) = some !b := rfl

section Comparison

variable [DecidableEq κ]

@[simp] theorem eq_some (x y : κ) : eq (some x) (some y) = some (decide (x = y)) := rfl

@[simp] theorem ne_some (x y : κ) : ne (some x) (some y) = some (decide (x ≠ y)) := rfl

@[simp] theorem isIn_some (x : κ) (values : List κ) :
    isIn (some x) values = some (decide (x ∈ values)) := rfl

theorem eq_symm (a b : Option κ) : eq a b = eq b a := by
  cases a <;> cases b <;> simp [eq, eq_comm]

/-- Comparing with `NULL` keeps no row. -/
@[simp] theorem eq_none_left (b : Option κ) : eq none b = none := rfl

@[simp] theorem eq_none_right (a : Option κ) : eq a none = none := by
  cases a <;> rfl

@[simp] theorem ne_none_left (b : Option κ) : ne none b = none := rfl

end Comparison

theorem mem_select {rows : List α} {p : α → Truth} {r : α} :
    r ∈ select rows p ↔ r ∈ rows ∧ holds (p r) := by
  simp [select]

theorem mem_join {left : List α} {right : List β} {on : α → β → Truth} {ab : α × β} :
    ab ∈ join left right on ↔ ab.1 ∈ left ∧ ab.2 ∈ right ∧ holds (on ab.1 ab.2) := by
  obtain ⟨a, b⟩ := ab
  simp [join, mem_select]

@[simp] theorem holds_existsRow {rows : List α} {p : α → Truth} :
    holds (existsRow rows p) = rows.any fun r => holds (p r) := by
  simp [existsRow]

/-- A condition on the left table can be applied before the join. -/
theorem select_join_left (left : List α) (right : List β) (on : α → β → Truth) (p : α → Truth) :
    select (join left right on) (fun ab => p ab.1) = join (select left p) right on := by
  induction left with
  | nil => rfl
  | cons a rest ih =>
      simp only [join, select, List.flatMap_cons, List.filter_append] at ih ⊢
      rw [ih, List.filter_cons]
      split
      · rename_i hp
        simp [hp, List.filter_map, Function.comp_def]
      · rename_i hp
        simp [hp, List.filter_map, Function.comp_def]

/-! ### Sorting -/

section Order

variable {κ : Type*} [LinearOrder κ] {key : α → κ}

theorem orderBy_perm (rows : List α) (key : α → κ) : (orderBy rows key).Perm rows :=
  List.perm_insertionSort _ rows

theorem pairwise_orderBy (rows : List α) (key : α → κ) :
    (orderBy rows key).Pairwise fun a b => key a ≤ key b := by
  have htotal : Std.Total fun a b : α => key a ≤ key b := ⟨fun a b => le_total (key a) (key b)⟩
  have htrans : IsTrans α fun a b : α => key a ≤ key b := ⟨fun _ _ _ => le_trans⟩
  exact List.pairwise_insertionSort _ rows

theorem orderBy_eq_of_perm {rows sorted : List α} (hperm : rows.Perm sorted)
    (hsorted : sorted.Pairwise fun a b => key a < key b) : orderBy rows key = sorted := by
  refine List.Perm.eq_of_pairwise ?_ (pairwise_orderBy rows key)
    (hsorted.imp fun h => h.le) ((orderBy_perm rows key).trans hperm)
  intro a b ha hb hab hba
  have ha : a ∈ sorted := ((orderBy_perm rows key).trans hperm).subset ha
  by_contra hne
  have hkeys : sorted.Pairwise fun a b => key a ≠ key b := hsorted.imp fun h => h.ne
  have hsymm : Std.Symm fun a b : α => key a ≠ key b := ⟨fun _ _ => Ne.symm⟩
  exact hkeys.forall ha hb hne (le_antisymm hab hba)

end Order

/-! ### Unique keys -/

section Key

variable [DecidableEq κ] {right : List β} {key : β → κ}

theorem select_key (hkey : (right.map key).Nodup) {r : β} (hr : r ∈ right) :
    select right (fun b => eq (some (key b)) (some (key r))) = [r] := by
  induction right with
  | nil => simp at hr
  | cons b rest ih =>
      rw [List.map_cons, List.nodup_cons] at hkey
      obtain rfl | hrest := List.mem_cons.1 hr
      · have hnone : rest.filter (fun b => decide (key b = key r)) = [] := by
          apply List.filter_eq_nil_iff.2
          intro b hb
          simp only [decide_eq_true_eq]
          exact fun heq => hkey.1 (heq ▸ List.mem_map_of_mem hb)
        simp [select, hnone]
      · have hne : key b ≠ key r := fun heq => hkey.1 (heq ▸ List.mem_map_of_mem hrest)
        simpa [select, hne] using ih hkey.2 hrest

/-- A join along a foreign key: `ref` gives the row each row of `left` refers
to, none where the column is `NULL`. -/
theorem join_key {left : List α} {fk : α → Option κ} (ref : α → Option β)
    (hkey : (right.map key).Nodup)
    (href : ∀ a ∈ left, fk a = (ref a).map key ∧ ∀ r ∈ ref a, r ∈ right) :
    join left right (fun a b => eq (some (key b)) (fk a)) =
      left.filterMap fun a => (ref a).map fun b => (a, b) := by
  induction left with
  | nil => rfl
  | cons a rest ih =>
      have hrest := ih fun a' ha' => href a' (List.mem_cons_of_mem a ha')
      obtain ⟨hfk, hmem⟩ := href a List.mem_cons_self
      rw [join] at hrest ⊢
      rw [List.flatMap_cons, hrest, hfk]
      cases hr : ref a with
      | none => simp [hr, select]
      | some r =>
          rw [Option.map_some, select_key hkey (hmem r hr)]
          simp [hr]

theorem countP_join_key {left : List α} {fk : α → Option κ} (ref : α → Option β)
    (hkey : (right.map key).Nodup)
    (href : ∀ a ∈ left, fk a = (ref a).map key ∧ ∀ r ∈ ref a, r ∈ right) (p : α × β → Bool) :
    (join left right (fun a b => eq (some (key b)) (fk a))).countP p =
      left.countP fun a => (ref a).any fun b => p (a, b) := by
  rw [join_key ref hkey href, List.countP_filterMap]
  apply List.countP_congr
  intro a _
  cases ref a <;> simp

theorem leftJoin_key_map_fst {left : List α} {fk : α → Option κ} (hkey : (right.map key).Nodup) :
    (leftJoin left right fun a b => eq (fk a) (some (key b))).map Prod.fst = left := by
  induction left with
  | nil => rfl
  | cons a rest ih =>
      rw [leftJoin] at ih ⊢
      rw [List.flatMap_cons, List.map_append, ih]
      have hsome : ∀ b ∈ right, fk a = some (key b) →
          select right (fun b => eq (fk a) (some (key b))) = [b] := by
        intro b hb hfk
        have hone := select_key hkey hb
        simp only [select, eq_some, holds_some] at hone ⊢
        simp only [hfk, eq_some, holds_some]
        rw [← hone]
        exact List.filter_congr fun b' _ => decide_eq_decide.2 eq_comm
      cases hfound : select right (fun b => eq (fk a) (some (key b))) with
      | nil => rfl
      | cons b found =>
          have hb : b ∈ select right (fun b => eq (fk a) (some (key b))) := by simp [hfound]
          obtain ⟨hmem, hholds⟩ := mem_select.1 hb
          have hfk : fk a = some (key b) := by
            cases hcase : fk a with
            | none => simp [hcase] at hholds
            | some k =>
                rw [hcase, eq_some, holds_some, decide_eq_true_eq] at hholds
                rw [hholds]
          rw [hsome b hmem hfk] at hfound
          rw [← (List.cons.inj hfound).2]
          rfl

end Key

/-! ### Groups -/

section Group

variable [DecidableEq κ] {rows : List α} {key : α → κ} {value : α → ℕ}

theorem groupMax_keys_nodup : ((groupMax rows key value).map Prod.fst).Nodup := by
  have hkeys : (groupMax rows key value).map Prod.fst = (rows.map key).dedup := by
    rw [groupMax, List.map_map]
    exact List.map_id _
  rw [hkeys]
  exact List.nodup_dedup _

/-- The maximum of a row's group is the value of the row exactly when no other
row of the group exceeds it. -/
theorem max?_group {r : α} (hr : r ∈ rows) :
    ((rows.filter fun r' => key r' = key r).map value).max? = some (value r) ↔
      ∀ r' ∈ rows, key r' = key r → value r' ≤ value r := by
  rw [List.max?_eq_some_iff]
  constructor
  · rintro ⟨_, hle⟩ r' hr' hkey
    exact hle _ (List.mem_map_of_mem (List.mem_filter.2 ⟨hr', by simpa using hkey⟩))
  · intro hle
    refine ⟨List.mem_map_of_mem (List.mem_filter.2 ⟨hr, by simp⟩), fun v hv => ?_⟩
    obtain ⟨r', hr', rfl⟩ := List.mem_map.1 hv
    obtain ⟨hmem, hkey⟩ := List.mem_filter.1 hr'
    exact hle r' hmem (by simpa using hkey)

theorem select_groupMax {r : α} (hr : r ∈ rows) :
    select (groupMax rows key value)
        (fun g => and (eq (some g.1) (some (key r))) (eq g.2 (some (value r)))) =
      if ∀ r' ∈ rows, key r' = key r → value r' ≤ value r then
        [(key r, ((rows.filter fun r' => key r' = key r).map value).max?)] else [] := by
  have hgroup : (key r, ((rows.filter fun r' => key r' = key r).map value).max?) ∈
      groupMax rows key value :=
    List.mem_map_of_mem (List.mem_dedup.2 (List.mem_map_of_mem hr))
  have hone := select_key groupMax_keys_nodup hgroup
  have hboth : select (groupMax rows key value)
      (fun g => and (eq (some g.1) (some (key r))) (eq g.2 (some (value r)))) =
      (select (groupMax rows key value) fun g => eq (some g.1) (some (key r))).filter
        fun g => holds (eq g.2 (some (value r))) := by
    simp only [select, List.filter_filter, holds_and, Bool.and_comm]
  rw [hboth, hone, List.filter_singleton]
  have hmax := @max?_group _ _ _ rows key value r hr
  split
  · rename_i hle
    rw [hmax.2 hle]
    simp
  · rename_i hle
    cases hcase : ((rows.filter fun r' => key r' = key r).map value).max? with
    | none => simp
    | some v =>
        have hv : v ≠ value r := by
          rintro rfl
          exact hle (hmax.1 hcase)
        simp [hv]

theorem join_map_fst {β : Type*} {left : List α} {right : List β} {on : α → β → Truth}
    {p : α → Prop} [DecidablePred p] {f : α → β}
    (hselect : ∀ a ∈ left, select right (on a) = if p a then [f a] else []) :
    (join left right on).map Prod.fst = left.filter p := by
  induction left with
  | nil => rfl
  | cons a rest ih =>
      have hrest := ih fun a' ha' => hselect a' (List.mem_cons_of_mem a ha')
      rw [join] at hrest ⊢
      rw [List.flatMap_cons, List.map_append, hrest, hselect a List.mem_cons_self, List.filter_cons]
      by_cases hp : p a <;> simp [hp]

/-- Joining a table with the maxima of its groups, on the key and the maximum,
keeps the rows that no other row of their group exceeds, and each of them once. -/
theorem join_groupMax :
    (join rows (groupMax rows key value) fun r g =>
        and (eq (some g.1) (some (key r))) (eq g.2 (some (value r)))).map Prod.fst =
      rows.filter fun r => ∀ r' ∈ rows, key r' = key r → value r' ≤ value r :=
  join_map_fst fun _ hr => select_groupMax hr

end Group

/-! ### Sums of counts -/

theorem countP_eq_sum (bs : List β) (p : β → Bool) :
    bs.countP p = (bs.map fun b => if p b then 1 else 0).sum := by
  induction bs with
  | nil => rfl
  | cons b bs ih => rw [List.countP_cons, List.map_cons, List.sum_cons, ih, Nat.add_comm]

theorem sum_map_congr {bs : List β} {f g : β → ℕ} (h : ∀ b ∈ bs, f b = g b) :
    (bs.map f).sum = (bs.map g).sum := congrArg List.sum (List.map_congr_left h)

/-- Counting, for every row of one table, the rows of another that are related
to it counts the related pairs, from either side. -/
theorem sum_countP_comm (as : List α) (bs : List β) (p : α → β → Bool) :
    (as.map fun a => bs.countP (p a)).sum = (bs.map fun b => as.countP fun a => p a b).sum := by
  induction as with
  | nil => simp
  | cons a as ih =>
      have hcons : ∀ b, (a :: as).countP (fun a => p a b) =
          (if p a b then 1 else 0) + as.countP fun a => p a b := by
        intro b
        rw [List.countP_cons, Nat.add_comm]
      rw [List.map_cons, List.sum_cons, ih, countP_eq_sum]
      simp only [hcons]
      rw [List.sum_map_add]

theorem countP_or_add_countP_and (l : List α) (p q : α → Bool) :
    l.countP (fun a => p a || q a) + l.countP (fun a => p a && q a) = l.countP p + l.countP q := by
  induction l with
  | nil => rfl
  | cons a l ih =>
      simp only [List.countP_cons]
      cases p a <;> cases q a <;> simp <;> omega

/-! ### Counting rows by their key -/

section KeyCounts

variable [DecidableEq κ] {right : List β} {key : β → κ} {k k' : κ}

theorem countP_key (hkey : (right.map key).Nodup) (hk : k ∈ right.map key) :
    right.countP (fun b => k == key b) = 1 := by
  obtain ⟨r, hr, rfl⟩ := List.mem_map.1 hk
  have hone := select_key hkey hr
  simp only [select, eq_some, holds_some] at hone
  have hflip : (fun b => key r == key b) = fun b => decide (key b = key r) := by
    funext b
    rw [beq_eq_decide]
    exact decide_eq_decide.2 eq_comm
  rw [hflip, List.countP_eq_length_filter, hone, List.length_singleton]

theorem countP_key_and_ne (hkey : (right.map key).Nodup) (hk' : k' ∈ right.map key) :
    right.countP (fun b => k' == key b && k != key b) = if k = k' then 0 else 1 := by
  split
  · rename_i heq
    subst heq
    simp
  · rename_i hne
    rw [← countP_key hkey hk']
    apply List.countP_congr
    intro b _
    simp only [Bool.and_eq_true, beq_iff_eq, bne_iff_ne, and_iff_left_iff_imp]
    rintro rfl
    exact hne

theorem countP_two_keys (hkey : (right.map key).Nodup) (hk : k ∈ right.map key)
    (hk' : k' ∈ right.map key) :
    right.countP (fun b => k == key b || k' == key b) = if k = k' then 1 else 2 := by
  have hadd := countP_or_add_countP_and right (fun b => k == key b) fun b => k' == key b
  rw [countP_key hkey hk, countP_key hkey hk'] at hadd
  split
  · rename_i heq
    subst heq
    simpa using countP_key hkey hk
  · rename_i hne
    have hnone : right.countP (fun b => k == key b && k' == key b) = 0 := by
      apply List.countP_eq_zero.2
      intro b _ hboth
      simp only [Bool.and_eq_true, beq_iff_eq] at hboth
      exact hne (hboth.1.trans hboth.2.symm)
    omega

end KeyCounts

end Sql
