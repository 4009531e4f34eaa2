import PortageEngine.Library.Decimal

/-!
# Choosing the newest stored package

`Store.Query` walks the candidates of a name and keeps a package whenever the one kept so far has a
lesser version. `versionLess` compares two components as numbers if both are numbers and as texts
otherwise, which is not transitive, so the choice may depend on the order of the walk. The package
chosen is the newest in every order exactly if one version exceeds all others.
-/

namespace PortageEngine.Packages.Versions

open List Library.Decimal

structure Package where
  name : String
  version : String
  arch : String
  useFlags : List String
deriving DecidableEq

structure QueryRequest where
  name : String
  version : String
  arch : String
  useFlags : List String

/-! ## The comparison -/

/-- The components between dots, dashes and underscores, empty ones left out. -/
def components (version : String) : List String :=
  ((version.toList.splitOnP fun c => c = '.' || c = '-' || c = '_').filter (· ≠ [])).map
    String.ofList

def componentsLess : List String → List String → Bool
  | a :: as, b :: bs =>
    match atoi a, atoi b with
    | some m, some n => if m ≠ n then decide (m < n) else componentsLess as bs
    | _, _ => if a ≠ b then decide (a < b) else componentsLess as bs
  | as, bs => decide (as.length < bs.length)

def versionLess (a b : String) : Bool :=
  componentsLess (components a) (components b)

theorem componentsLess_asymm {as bs : List String} (h : componentsLess as bs = true) :
    componentsLess bs as = false := by
  fun_induction componentsLess as bs with
  | case1 a as b bs m n ha hb hne => grind [componentsLess]
  | case2 a as b bs m n ha hb heq ih => grind [componentsLess]
  | case3 a as b bs hne hnumbers =>
    grind [componentsLess]
  | case4 a as b bs heq hnumbers ih => grind [componentsLess]
  | case5 as bs hempty =>
    cases as with
    | nil => cases bs <;> simp_all [componentsLess]
    | cons a as =>
      cases bs with
      | nil => simp at h
      | cons b bs => exact (hempty a as b bs rfl rfl).elim

theorem versionLess_asymm {a b : String} (h : versionLess a b = true) : versionLess b a = false :=
  componentsLess_asymm h

/-! ## The query -/

def packageKey (name arch : String) : String :=
  name ++ "|" ++ arch

def useFlagsMatch (pkgFlags reqFlags : List String) : Bool :=
  reqFlags.all (pkgFlags.contains ·)

/-- The query index is a map from keys to packages; it is given in the order it is visited in. -/
def candidatesLocked (packages : List (String × List Package)) (name arch : String) :
    List Package :=
  if arch ≠ "" then (packages.lookup (packageKey name arch)).getD []
  else (packages.filter fun entry => entry.2.head?.any (·.name = name)).flatMap (·.2)

/-- What the loop of the query checks of a candidate. -/
def passes (req : QueryRequest) (pkg : Package) : Bool :=
  (req.version = "" || pkg.version = req.version) && useFlagsMatch pkg.useFlags req.useFlags

def newer (kept pkg : Package) : Package :=
  if versionLess kept.version pkg.version then pkg else kept

def queryAmong (candidates : List Package) (req : QueryRequest) : Option Package :=
  candidates.foldl (fun best pkg =>
    if passes req pkg then some (best.elim pkg (newer · pkg)) else best) none

def query (packages : List (String × List Package)) (req : QueryRequest) : Option Package :=
  queryAmong (candidatesLocked packages req.name req.arch) req

/-- A package answers a query: its name and its architecture are those asked for too. -/
def Answers (req : QueryRequest) (pkg : Package) : Prop :=
  passes req pkg = true ∧ pkg.name = req.name ∧ (req.arch = "" ∨ pkg.arch = req.arch)

/-- However the candidates are visited, the package chosen answers the query, no candidate that
answers it is newer, and the version is the same. -/
def NewestInEveryOrder (candidates : List Package) (req : QueryRequest) : Prop :=
  ∃ version : Option String, ∀ order, order.Perm candidates →
    (queryAmong order req).map (·.version) = version ∧
      ∀ pkg, queryAmong order req = some pkg → Answers req pkg ∧
        ∀ other ∈ candidates, Answers req other → versionLess pkg.version other.version = false

variable {candidates : List Package} {req : QueryRequest} {version : String}

theorem foldl_newer_mem (kept : Package) (pkgs : List Package) :
    pkgs.foldl newer kept ∈ kept :: pkgs := by
  induction pkgs generalizing kept with
  | nil => exact mem_cons_self
  | cons pkg pkgs ih => grind [newer]

variable {pkgs : List Package} {pkg : Package}

/-- A package that nothing later exceeds is kept to the end. -/
theorem foldl_newer_stay {kept : Package}
    (h : ∀ pkg ∈ pkgs, versionLess kept.version pkg.version = false) :
    pkgs.foldl newer kept = kept := by
  induction pkgs with
  | nil => rfl
  | cons pkg pkgs ih => grind [newer]

/-- A version that exceeds all others is the one found. -/
theorem foldl_newer_top {kept : Package}
    (htop : ∀ pkg ∈ kept :: pkgs, pkg.version = version ∨ versionLess pkg.version version = true)
    (hfound : ∃ pkg ∈ kept :: pkgs, pkg.version = version) :
    (pkgs.foldl newer kept).version = version := by
  induction pkgs generalizing kept with
  | nil => grind
  | cons pkg pkgs ih =>
    refine ih (by grind [newer]) ?_
    rcases hfound with ⟨found, hmem, hversion⟩
    by_cases hlater : found ∈ pkgs
    · exact ⟨found, mem_cons_of_mem _ hlater, hversion⟩
    · exact ⟨newer kept pkg, mem_cons_self, by grind [newer, versionLess_asymm]⟩

theorem queryAmong_eq (candidates : List Package) (req : QueryRequest) :
    queryAmong candidates req = match candidates.filter (passes req) with
      | [] => none
      | first :: rest => some (rest.foldl newer first) := by
  have hsome : ∀ (rest : List Package) (kept : Package),
      rest.foldl (fun best pkg => some (best.elim pkg (newer · pkg))) (some kept) =
        some (rest.foldl newer kept) := by
    intro rest
    induction rest with
    | nil => exact fun _ => rfl
    | cons pkg rest ih => exact fun kept => ih (newer kept pkg)
  rw [queryAmong, ← foldl_filter]
  cases candidates.filter (passes req) with
  | nil => rfl
  | cons first rest => exact hsome rest first

theorem queryAmong_some (h : queryAmong candidates req = some pkg) :
    pkg ∈ candidates ∧ passes req pkg = true := by
  rw [queryAmong_eq] at h
  split at h
  · cases h
  next first rest hlist =>
  have hmem := foldl_newer_mem first rest
  rw [← hlist, Option.some.inj h] at hmem
  exact mem_filter.mp hmem

theorem exists_chosen (hmem : pkg ∈ candidates) (hpasses : passes req pkg = true) :
    ∃ top, queryAmong candidates req = some top := by
  have hfiltered : pkg ∈ candidates.filter (passes req) := mem_filter.mpr ⟨hmem, hpasses⟩
  rcases exists_cons_of_ne_nil (ne_nil_of_mem hfiltered) with ⟨first, rest, hlist⟩
  exact ⟨rest.foldl newer first, by rw [queryAmong_eq, hlist]⟩

/-- Visited first, a package is passed over for none of a version that does not exceed its own. -/
theorem exists_order_avoiding (hmem : pkg ∈ candidates)
    (hpasses : passes req pkg = true) (hless : versionLess pkg.version version = false) :
    ∃ order, order.Perm candidates ∧
      ∀ chosen, queryAmong order req = some chosen → chosen = pkg ∨ chosen.version ≠ version := by
  -- the packages of that version follow, and then all others
  let rest := candidates.erase pkg
  refine ⟨pkg :: (rest.filter (·.version = version) ++ rest.filter fun p => !(p.version = version)),
    ((filter_append_perm _ rest).cons pkg).trans (perm_cons_erase hmem).symm, ?_⟩
  intro chosen hchosen
  rw [queryAmong_eq, filter_cons_of_pos hpasses, filter_append] at hchosen
  have hstay : ((rest.filter (·.version = version)).filter (passes req)).foldl newer pkg = pkg :=
    foldl_newer_stay fun p hp => by grind
  have hlast := Option.some.inj hchosen
  rw [foldl_append, hstay] at hlast
  have hin := foldl_newer_mem pkg ((rest.filter fun p => !(p.version = version)).filter (passes req))
  grind

/-- The newest package is chosen in every order exactly if no candidate passes the checks, or one
version exceeds every other one that passes and the packages of that version answer the query. -/
theorem newest_in_every_order_iff (packages : List (String × List Package)) (req : QueryRequest) :
    NewestInEveryOrder (candidatesLocked packages req.name req.arch) req ↔
      (∀ pkg ∈ candidatesLocked packages req.name req.arch, passes req pkg = false) ∨
      ∃ top ∈ candidatesLocked packages req.name req.arch, passes req top = true ∧
        ∀ pkg ∈ candidatesLocked packages req.name req.arch, passes req pkg = true →
          versionLess pkg.version top.version = true ∨
            (pkg.version = top.version ∧ Answers req pkg) := by
  generalize candidatesLocked packages req.name req.arch = candidates
  constructor
  · rintro ⟨version, hall⟩
    cases hquery : queryAmong candidates req with
    | none =>
      refine .inl fun pkg hpkg => Bool.eq_false_iff.mpr fun hpasses => ?_
      rcases exists_chosen hpkg hpasses with ⟨top, htop⟩
      cases htop.symm.trans hquery
    | some top =>
      rcases queryAmong_some hquery with ⟨htop, htoppasses⟩
      refine .inr ⟨top, htop, htoppasses, fun pkg hpkg hpasses => ?_⟩
      cases hless : versionLess pkg.version top.version with
      | true => exact .inl rfl
      | false =>
        rcases exists_order_avoiding hpkg hpasses hless with ⟨order, hperm, havoid⟩
        rcases exists_chosen (hperm.mem_iff.mpr hpkg) hpasses with ⟨chosen, hchosen⟩
        have hsame : some chosen.version = some top.version := by
          have := (hall order hperm).1.trans (hall candidates (List.Perm.refl _)).1.symm
          simpa [hchosen, hquery] using this
        rcases havoid chosen hchosen with rfl | hother
        · exact .inr ⟨Option.some.inj hsame, ((hall order hperm).2 chosen hchosen).1⟩
        · exact absurd (Option.some.inj hsame) hother
  · rintro (hnone | ⟨top, htop, hpasses, hbelow⟩)
    · refine ⟨none, fun order hperm => ?_⟩
      cases hquery : queryAmong order req with
      | none => simp
      | some pkg =>
        have hin := queryAmong_some hquery
        rw [hnone pkg (hperm.mem_iff.mp hin.1)] at hin
        cases hin.2
    · refine ⟨some top.version, fun order hperm => ?_⟩
      rcases exists_chosen (hperm.mem_iff.mpr htop) hpasses with ⟨chosen, hchosen⟩
      have hversion : chosen.version = top.version := by
        rw [queryAmong_eq] at hchosen
        split at hchosen
        · cases hchosen
        next first rest hlist =>
        rw [← Option.some.inj hchosen]
        have hmem : ∀ pkg, pkg ∈ first :: rest ↔ pkg ∈ candidates ∧ passes req pkg = true := by
          intro pkg
          rw [← hlist, mem_filter, hperm.mem_iff]
        exact foldl_newer_top (by grind) ⟨top, (hmem top).mpr ⟨htop, hpasses⟩, rfl⟩
      have hin := queryAmong_some hchosen
      grind [versionLess_asymm, Answers]

/-- Numbers are compared as numbers only with numbers, so three versions may form a cycle; the
package chosen among them depends on which is visited first. -/
theorem versions_cycle :
    versionLess "1.9" "1.10" = true ∧ versionLess "1.10" "1.1a" = true ∧
      versionLess "1.1a" "1.9" = true ∧
      ∃ first second third : Package, ∃ req : QueryRequest,
        query [(packageKey "app/x" "amd64", [first, second, third])] req = some third ∧
        query [(packageKey "app/x" "amd64", [second, third, first])] req = some first := by
  refine ⟨by decide +kernel, by decide +kernel, by decide +kernel, ⟨"app/x", "1.9", "amd64", []⟩,
    ⟨"app/x", "1.10", "amd64", []⟩, ⟨"app/x", "1.1a", "amd64", []⟩, ⟨"app/x", "", "amd64", []⟩, ?_⟩
  exact ⟨by decide +kernel, by decide +kernel⟩

end PortageEngine.Packages.Versions
