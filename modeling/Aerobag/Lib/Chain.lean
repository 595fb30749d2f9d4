import Mathlib.Data.List.Nodup
import Mathlib.Data.Fintype.Card

/-!
# Following a chain of links

A follower goes to the end of a chain of links `(a, b)`: it asks for the first link that leaves its
position, or else for the checkpoint, which lies on the chain. If no first link leads back on the
way (`Clear`), nothing is asked for twice and the end is reached (`Follows.of_clear`);
`clear_of_nodup` is a converse.
-/

open List Option

namespace Chain

variable {α : Type} [DecidableEq α] {pos : Option α} {link : α × α} {a : α}

/-- The links lead from one point to another. -/
def Joined : α → List (α × α) → α → Prop
  | a, [], b => a = b
  | a, link :: links, b => link.1 = a ∧ Joined link.2 links b

def leaving (links : List (α × α)) (x : α) : Option (α × α) := links.find? (·.1 = x)

/-- What a follower needs to know. -/
structure Source (α : Type) where
  links : List (α × α)
  checkpoint : α
  target : α

inductive Fetch (α : Type) where
  | checkpoint (x : α)
  | link (link : α × α)
deriving DecidableEq

/-- Where the follower is when it has got what it asked for. -/
def Fetch.arrival : Fetch α → α
  | .checkpoint x => x
  | .link taken => taken.2

def Fetch.isCheckpoint : Fetch α → Bool
  | .checkpoint _ => true
  | .link _ => false

variable {src : Source α} {links : List (α × α)} {target x : α}

/-- What the follower asks for at a position, nothing at the end of the chain. -/
def ask (source : Source α) (position : Option α) : Option (Fetch α) :=
  if position = some source.target then none
  else
    match position.bind (leaving source.links) with
    | some link => some (.link link)
    | none => some (.checkpoint source.checkpoint)

/-- The rounds of a follower from one position to another. -/
inductive Follows (source : Source α) : Option α → List (Fetch α) → Option α → Prop
  | nil (position : Option α) : Follows source position [] position
  | cons {position position' : Option α} {fetch : Fetch α} {fetches : List (Fetch α)}
    (hask : ask source position = some fetch)
    (hrest : Follows source (some fetch.arrival) fetches position') :
    Follows source position (fetch :: fetches) position'

/-- Along the links each point before the target is met for the first time. -/
def FreshAlong (target : α) : List α → List (α × α) → Prop
  | _, [] => True
  | seen, link :: links =>
    link.2 = target ∨ (link.2 ∉ link.1 :: seen ∧ FreshAlong target (link.1 :: seen) links)

instance FreshAlong.decidable (target : α) :
    ∀ seen links, Decidable (FreshAlong target seen links)
  | _, [] => .isTrue trivial
  | seen, link :: links =>
    have := FreshAlong.decidable target (link.1 :: seen) links
    inferInstanceAs (Decidable (link.2 = target ∨ (link.2 ∉ link.1 :: seen ∧ _)))

def before (links : List (α × α)) (x : α) : List (α × α) := links.takeWhile (·.1 ≠ x)

def onward (links : List (α × α)) (x : α) : List (α × α) := links.dropWhile (·.1 ≠ x)

/-- The way from a point to the target does not come back. -/
def ClearFrom (source : Source α) (x : α) : Prop :=
  x = source.target ∨
    FreshAlong source.target ((before source.links x).map (·.1)).reverse (onward source.links x)

instance ClearFrom.decidable (source : Source α) (x : α) : Decidable (ClearFrom source x) :=
  inferInstanceAs (Decidable (_ ∨ _))

/-- Where the chain is entered from a position. -/
def entrance (source : Source α) (position : Option α) : α :=
  match position with
  | some x => if x = source.target ∨ (leaving source.links x).isSome then x else source.checkpoint
  | none => source.checkpoint

def Clear (source : Source α) (position : Option α) : Prop :=
  ClearFrom source (entrance source position)

instance Clear.decidable (source : Source α) (position : Option α) :
    Decidable (Clear source position) :=
  ClearFrom.decidable source _

theorem ask_eq_none : ask src pos = none ↔ pos = some src.target := by
  unfold ask
  split
  · simp_all
  · split <;> simp_all

theorem ask_of_leaving (hne : x ≠ src.target) (h : leaving src.links x = some link) :
    ask src (some x) = some (.link link) := by
  unfold ask
  simp [hne, h]

theorem leaving_append_of_notMem {p la : List (α × α)} (hpr : link.1 ∉ p.map (·.1)) :
    leaving (p ++ link :: la) link.1 = some link := by
  have hn : p.find? (fun l => decide (l.1 = link.1)) = none := by
    rw [find?_eq_none]
    rintro l hl hfs
    exact hpr (List.mem_map.2 ⟨l, hl, of_decide_eq_true hfs⟩)
  simp [leaving, hn]

/-- On a fresh stretch the follower takes one link after the other. -/
theorem Follows.of_fresh {p r : List (α × α)} {s : List α} {fs : List (Fetch α)}
    (hln : src.links = p ++ r) (hsn : ∀ a, a ∈ s ↔ a ∈ p.map (·.1))
    (hjn : Joined x r src.target) (hx : x ∉ s) (hfr : x = src.target ∨ FreshAlong src.target s r)
    (h : Follows src (some x) fs pos) : ∃ n, n <+: r ∧ fs = n.map .link ∧ (n.map (·.1)).Nodup ∧
      ∀ a ∈ n.map (·.1), a ∉ s := by
  induction r generalizing p s x fs with
  | nil =>
    obtain rfl : x = src.target := hjn
    cases h with
    | nil => exact ⟨[], by simp⟩
    | cons hs _ => simp [ask] at hs
  | cons l r ih =>
    obtain ⟨rfl, hjn⟩ := hjn
    cases h with
    | nil => exact ⟨[], by simp⟩
    | @cons _ _ f fs hs hr =>
      have hne : l.1 ≠ src.target := by
        intro heq
        rw [heq, ask_eq_none.2 rfl] at hs
        exact absurd hs (by simp)
      have hlv : leaving src.links l.1 = some l := by
        rw [hln]
        exact leaving_append_of_notMem fun hm => hx ((hsn _).2 hm)
      obtain rfl : .link l = f := some.inj ((ask_of_leaving hne hlv).symm.trans hs)
      have hnx : l.2 = src.target ∨ (l.2 ∉ l.1 :: s ∧ FreshAlong src.target (l.1 :: s) r) :=
        hfr.resolve_left hne
      by_cases he : l.2 = src.target
      · -- the target is reached, nothing more is asked for
        have hst : fs = [] := by
          cases hr with
          | nil => rfl
          | cons has' _ =>
            rw [ask_eq_none.2 (by rw [Fetch.arrival, he])] at has'
            exact absurd has' (by simp)
        refine ⟨[l], by simp, by simp [hst], by simp, ?_⟩
        simpa using hx
      · obtain ⟨hn, hfr'⟩ := hnx.resolve_left he
        have hsn' : ∀ a, a ∈ l.1 :: s ↔ a ∈ (p ++ [l]).map (·.1) := by
          intro a
          rw [mem_cons, hsn, map_append]
          simp [or_comm]
        obtain ⟨n, htk, rfl, hnd, hds⟩ := ih (by simp [hln]) hsn' hjn hn (.inr hfr') hr
        refine ⟨l :: n, cons_prefix_cons.2 ⟨rfl, htk⟩, by simp, ?_, ?_⟩
        · refine nodup_cons.2 ⟨fun hm => ?_, hnd⟩
          exact hds _ hm mem_cons_self
        · intro a ha
          rcases mem_cons.1 ha with rfl | ha
          · exact hx
          · exact fun hm => hds a ha (mem_cons_of_mem _ hm)

omit [DecidableEq α] in
theorem joined_append {b : α} {xs ys : List (α × α)} :
    Joined a (xs ++ ys) b ↔ ∃ m, Joined a xs m ∧ Joined m ys b := by
  induction xs generalizing a with
  | nil => simp [Joined]
  | cons l xs ih =>
    rw [cons_append, Joined, ih]
    constructor
    · rintro ⟨hln, m, hxs, hys⟩
      exact ⟨m, ⟨hln, hxs⟩, hys⟩
    · rintro ⟨m, ⟨hln, hxs⟩, hys⟩
      exact ⟨hln, m, hxs, hys⟩

theorem before_append_onward (ls : List (α × α)) (x : α) : before ls x ++ onward ls x = ls :=
  takeWhile_append_dropWhile

theorem notMem_before (ls : List (α × α)) (x : α) : x ∉ (before ls x).map (·.1) := by
  rw [List.mem_map]
  rintro ⟨l, hln, rfl⟩
  exact of_decide_eq_true (List.all_eq_true.1 all_takeWhile l hln) rfl

theorem onward_eq_cons {ls : List (α × α)} (h : leaving ls x = some link) :
    link.1 = x ∧ ∃ r, onward ls x = link :: r := by
  have hfd := find?_some h
  have hfs : link.1 = x := by simpa using hfd
  refine ⟨hfs, ?_⟩
  induction ls with
  | nil => simp [leaving] at h
  | cons first ls ih =>
    by_cases hf : first.1 = x
    · obtain rfl : first = link := by simpa [leaving, hf] using h
      exact ⟨ls, by simp [onward, hfs]⟩
    · have hr : leaving ls x = some link := by simpa [leaving, hf] using h
      obtain ⟨r, hr⟩ := ih hr
      exact ⟨r, by simpa [onward, hf] using hr⟩

theorem joined_onward (hjn : Joined a links target) (h : leaving links x = some link) :
    Joined x (onward links x) target := by
  rw [← before_append_onward links x] at hjn
  obtain ⟨m, -, hm⟩ := joined_append.1 hjn
  obtain ⟨hfs, r, hr⟩ := onward_eq_cons h
  rw [hr] at hm ⊢
  exact ⟨hfs, hm.2⟩

section Clear

variable {start : α} {pos pos' : Option α} {fts : List (Fetch α)}

/-- From a point on the chain with a clear way only links are asked for, each once. -/
theorem Follows.of_clearFrom (hjn : Joined start src.links src.target)
    (hcl : ClearFrom src x) (hon : x = src.target ∨ (leaving src.links x).isSome)
    (h : Follows src (some x) fts pos) :
    ∃ n : List (α × α), fts = n.map .link ∧ (n.map (·.1)).Nodup ∧ n.length ≤ src.links.length := by
  by_cases he : x = src.target
  · cases h with
    | nil => exact ⟨[], by simp⟩
    | cons hs _ =>
      rw [ask_eq_none.2 (by rw [he])] at hs
      exact absurd hs (by simp)
  · obtain ⟨l, hln⟩ := isSome_iff_exists.1 (hon.resolve_left he)
    obtain ⟨n, htk, rfl, hnd, -⟩ := Follows.of_fresh
      (before_append_onward src.links x).symm (fun a => mem_reverse) (joined_onward hjn hln)
      (fun hm => notMem_before src.links x (mem_reverse.1 hm)) hcl h
    refine ⟨n, rfl, hnd, htk.length_le.trans ?_⟩
    have hsp := congrArg List.length (before_append_onward src.links x)
    rw [length_append] at hsp
    omega

theorem ask_off_chain (h : ¬ ∃ x, pos = some x ∧ (x = src.target ∨ (leaving src.links x).isSome)) :
    ask src pos = some (.checkpoint src.checkpoint) ∧ entrance src pos = src.checkpoint := by
  cases pos with
  | none => exact ⟨rfl, rfl⟩
  | some x =>
    have hx : ¬ (x = src.target ∨ (leaving src.links x).isSome) := fun hx => h ⟨x, rfl, hx⟩
    refine ⟨?_, if_neg hx⟩
    rw [not_or, not_isSome_iff_eq_none] at hx
    simp [ask, hx.1, hx.2]

omit [DecidableEq α] in
theorem nodup_map_link {n : List (α × α)} (h : (n.map (·.1)).Nodup) : (n.map Fetch.link).Nodup :=
  (List.Nodup.of_map _ h).map fun _ _ heq => Fetch.link.inj heq

omit [DecidableEq α] in
theorem countP_map_link (n : List (α × α)) : (n.map Fetch.link).countP Fetch.isCheckpoint = 0 := by
  simp [Fetch.isCheckpoint]

/-- **A follower with a clear way.** It asks for nothing twice, for the checkpoint at most once, and for
no more links than there are. -/
theorem Follows.of_clear {fs : List (Fetch α)} (hjn : Joined start src.links src.target)
    (hch : src.checkpoint = src.target ∨ (leaving src.links src.checkpoint).isSome)
    (hcl : Clear src pos) (h : Follows src pos fs pos') :
    fs.Nodup ∧ fs.countP Fetch.isCheckpoint ≤ 1 ∧
      fs.length ≤ fs.countP Fetch.isCheckpoint + src.links.length := by
  by_cases hon : ∃ x, pos = some x ∧ (x = src.target ∨ (leaving src.links x).isSome)
  · obtain ⟨x, rfl, hx⟩ := hon
    have hen : entrance src (some x) = x := by simp [entrance, hx]
    rw [Clear, hen] at hcl
    obtain ⟨n, rfl, hnd, hl⟩ := Follows.of_clearFrom hjn hcl hx h
    refine ⟨nodup_map_link hnd, ?_, ?_⟩
    · rw [countP_map_link]
      exact Nat.zero_le 1
    · rw [length_map]
      omega
  · obtain ⟨hs, hen⟩ := ask_off_chain hon
    rw [Clear, hen] at hcl
    cases h with
    | nil => simp
    | @cons _ _ f fs hft hr =>
      obtain rfl : .checkpoint src.checkpoint = f := some.inj (hs.symm.trans hft)
      obtain ⟨n, rfl, hnd, hl⟩ := Follows.of_clearFrom hjn hcl hch hr
      refine ⟨nodup_cons.2 ⟨by simp, nodup_map_link hnd⟩, ?_, ?_⟩
      · rw [countP_cons]
        simp [Fetch.isCheckpoint]
      · rw [countP_cons, length_cons]
        simp [Fetch.isCheckpoint]
        omega

/-- What a follower with a clear way asks for, under the names that the requests have; there may be one
more before them. -/
theorem Follows.requests {β : Type} {n : Fetch α → β} {ise ida : β → Bool}
    {asked : List β} {first : β} (hjn : Joined start src.links src.target)
    (hch : src.checkpoint = src.target ∨ (leaving src.links src.checkpoint).isSome)
    (hcl : Clear src pos) (h : Follows src pos fts pos')
    (hname : ∀ f ∈ fts, ∀ g ∈ fts, n f = n g → f = g)
    (hs : ∀ f, ise (n f) = f.isCheckpoint) (hd : ∀ f, ida (n f) = !f.isCheckpoint)
    (had : asked = [] ∨ asked = [first] ∧ ise first = false ∧ ida first = false) :
    (asked ++ fts.map n).Nodup ∧ (asked ++ fts.map n).countP ise ≤ 1 ∧
      (asked ++ fts.map n).countP ida ≤ src.links.length ∧
      (asked ++ fts.map n).length ≤ src.links.length + 2 := by
  obtain ⟨hnd, ho, hmn⟩ := h.of_clear hjn hch hcl
  have hnm : (fts.map n).Nodup := hnd.map_on hname
  have hst : (fts.map n).countP ise = fts.countP Fetch.isCheckpoint := by
    rw [countP_map]
    exact countP_congr fun f _ => by simp [hs]
  have hdl : (fts.map n).countP ida = fts.countP (¬ ·.isCheckpoint) := by
    rw [countP_map]
    exact countP_congr fun f _ => by simp [hd]
  have hsm := length_eq_countP_add_countP Fetch.isCheckpoint (l := fts)
  rcases had with rfl | ⟨rfl, hf, hf'⟩
  · rw [nil_append, length_map]
    exact ⟨hnm, by omega, by omega, by omega⟩
  · have hfr : first ∉ fts.map n := by
      intro hm
      obtain ⟨f, -, rfl⟩ := List.mem_map.1 hm
      rw [hs] at hf
      rw [hd, hf] at hf'
      cases hf'
    rw [singleton_append, countP_cons_of_neg (by simp [hf]),
      countP_cons_of_neg (by simp [hf']), length_cons, length_map]
    exact ⟨nodup_cons.2 ⟨hfr, hnm⟩, by omega, by omega, by omega⟩

end Clear

/-- Where a stretch is not fresh, a first part of it ends at a point that it has met before the
target. -/
theorem exists_return {r : List (α × α)} {sn : List α} (hjn : Joined a r target)
    (hne : a ≠ target) (hfr : ¬ FreshAlong target sn r) : ∃ s la later, r = s ++ la :: later ∧
      la.2 ∈ (s ++ [la]).map (·.1) ++ sn ∧ (∀ lk ∈ s ++ [la], lk.1 ≠ target ∧ lk.2 ≠ target) := by
  induction r generalizing a sn with
  | nil => exact absurd trivial hfr
  | cons lk r ih =>
    obtain ⟨rfl, hjn⟩ := hjn
    have hnt : lk.2 ≠ target ∧ (lk.2 ∉ lk.1 :: sn → ¬ FreshAlong target (lk.1 :: sn) r) := by
      rw [FreshAlong, not_or, not_and] at hfr
      exact hfr
    by_cases hold : lk.2 ∈ lk.1 :: sn
    · exact ⟨[], lk, r, rfl, by simpa using hold, by simpa using ⟨hne, hnt.1⟩⟩
    · obtain ⟨s, la, later, rfl, hls, hav⟩ := ih hjn hnt.1 (hnt.2 hold)
      refine ⟨lk :: s, la, later, rfl, ?_, ?_⟩
      · simp only [cons_append, map_cons, mem_append, mem_cons] at hls ⊢
        tauto
      · intro l hl
        rcases mem_cons.1 hl with rfl | hl
        · exact ⟨hne, hnt.1⟩
        · exact hav l hl

theorem leaving_eq_of_prefix {first la : List (α × α)} (h : leaving first x = some link) :
    leaving (first ++ la) x = some link := by
  have hfn : first.find? (fun l => decide (l.1 = x)) = some link := h
  simp [leaving, hfn]

omit [DecidableEq α] in
theorem snd_mem_of_joined {b : α} (h : Joined a links b) (hm : link ∈ links) :
    link.2 ∈ links.map (·.1) ∨ link.2 = b := by
  obtain ⟨p, l, rfl⟩ := append_of_mem hm
  obtain ⟨m, -, hr⟩ := joined_append.1 h
  obtain ⟨-, hla⟩ := hr
  cases l with
  | nil => exact .inr hla
  | cons next l =>
    obtain ⟨hnx, -⟩ := hla
    refine .inl (List.mem_map.2 ⟨next, by simp, hnx⟩)

/-- Inside a part of the chain that the first links do not leave, a follower goes on for ever. -/
theorem exists_follows_of_closed {p : List (α × α)} (ht : src.target ∉ p.map (·.1))
    (hcl : ∀ a ∈ p.map (·.1), ∃ lk ∈ p, leaving src.links a = some lk ∧
      lk.2 ∈ p.map (·.1)) (hx : x ∈ p.map (·.1)) (n : Nat) :
    ∃ (tk : List (α × α)) (y : α), tk.length = n ∧ (∀ lk ∈ tk, lk ∈ p) ∧
      Follows src (some x) (tk.map .link) (some y) := by
  induction n generalizing x with
  | zero => exact ⟨[], x, rfl, by simp, .nil _⟩
  | succ n ih =>
    obtain ⟨lk, hm, hln, hnx⟩ := hcl x hx
    obtain ⟨tk, y, h, hpr, hfl⟩ := ih hnx
    have hne : x ≠ src.target := fun heq => ht (heq ▸ hx)
    refine ⟨lk :: tk, y, by simp [h], ?_, .cons (ask_of_leaving hne hln) hfl⟩
    intro l hl
    rcases mem_cons.1 hl with rfl | hl
    · exact hm
    · exact hpr l hl

/-- A follower that never asks for a link twice has a clear way, unless the target occurs before the
point that it starts from. -/
theorem clearFrom_of_nodup {start : α} (hjn : Joined start src.links src.target)
    (hon : x = src.target ∨ (leaving src.links x).isSome)
    (ht : src.target ∉ (before src.links x).map (·.1)) (hnd : ∀ (n : List (α × α)) (y : α),
      Follows src (some x) (n.map .link) (some y) → n.Nodup) : ClearFrom src x := by
  by_contra hcl
  rw [ClearFrom, not_or] at hcl
  obtain ⟨hne, hfr⟩ := hcl
  obtain ⟨lk, hli⟩ := isSome_iff_exists.1 (hon.resolve_left hne)
  obtain ⟨st, la, later, hod, hrt, hav⟩ := exists_return (joined_onward hjn hli) hne hfr
  -- the part of the chain up to the return is never left
  generalize hpr : before src.links x ++ (st ++ [la]) = part at *
  have hln : src.links = part ++ later := by
    have hsp := before_append_onward src.links x
    rw [hod] at hsp
    rw [← hpr]
    simpa using hsp.symm
  obtain ⟨m, hjo, -⟩ := joined_append.1 (hln ▸ hjn)
  have hls : m = la.2 := by
    rw [← hpr, ← append_assoc] at hjo
    obtain ⟨_, -, -, heq⟩ := joined_append.1 hjo
    exact heq.symm
  have hba : la.2 ∈ part.map (·.1) := by
    rw [← hpr]
    simp only [map_append, mem_append, mem_reverse] at hrt ⊢
    tauto
  have htr : src.target ∉ part.map (·.1) := by
    rw [← hpr, map_append, mem_append, not_or]
    refine ⟨ht, fun hm => ?_⟩
    obtain ⟨l, hl, heq⟩ := List.mem_map.1 hm
    exact (hav l hl).1 heq
  have hcd : ∀ a ∈ part.map (·.1), ∃ lk ∈ part, leaving src.links a = some lk ∧
      lk.2 ∈ part.map (·.1) := by
    intro a ha
    obtain ⟨l, hl, rfl⟩ := List.mem_map.1 ha
    have hsm : (leaving part l.1).isSome := by
      rw [leaving, find?_isSome]
      exact ⟨l, hl, by simp⟩
    obtain ⟨first, hf⟩ := isSome_iff_exists.1 hsm
    have hm : first ∈ part := mem_of_find?_eq_some hf
    refine ⟨first, hm, hln ▸ leaving_eq_of_prefix hf, ?_⟩
    rcases snd_mem_of_joined hjo hm with hnx | he
    · exact hnx
    · rw [he, hls]
      exact hba
  have hx : x ∈ part.map (·.1) := by
    obtain ⟨hfs, r, hr⟩ := onward_eq_cons hli
    have hhd : lk ∈ st ++ [la] := by
      cases st with
      | nil => simp_all
      | cons s st => simp_all
    exact List.mem_map.2 ⟨lk, by rw [← hpr]; exact mem_append_right _ hhd, hfs⟩
  -- more rounds than links
  obtain ⟨n, y, h, hsb, hfl⟩ := exists_follows_of_closed htr hcd hx (part.length + 1)
  have hle := ((hnd n y hfl).subperm hsb).length_le
  omega

/-- **A follower that never asks twice.** Its way is clear, unless the target occurs on the chain before
the point where the follower enters it. -/
theorem clear_of_nodup {st : α} (hjn : Joined st src.links src.target)
    (hch : src.checkpoint = src.target ∨ (leaving src.links src.checkpoint).isSome)
    (ht : src.target ∉ (before src.links (entrance src pos)).map (·.1))
    (hnd : ∀ fs p', Follows src pos fs p' → fs.Nodup) : Clear src pos := by
  by_cases hon : ∃ x, pos = some x ∧ (x = src.target ∨ (leaving src.links x).isSome)
  · obtain ⟨x, rfl, hx⟩ := hon
    have hen : entrance src (some x) = x := by simp [entrance, hx]
    rw [hen] at ht
    rw [Clear, hen]
    exact clearFrom_of_nodup hjn hx ht fun n y h => .of_map _ (hnd _ _ h)
  · obtain ⟨hs, hen⟩ := ask_off_chain hon
    rw [hen] at ht
    rw [Clear, hen]
    exact clearFrom_of_nodup hjn hch ht fun n y h =>
      .of_map _ (nodup_cons.1 (hnd _ _ (.cons hs h))).2

end Chain
