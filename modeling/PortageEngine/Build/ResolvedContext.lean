import PortageEngine.Catalog.Resolve

/-!
# Server-owned build contexts

`Catalog.resolveAt` turns a request into a context.  Validation leaves no reference of a profile
without its entry, so no lookup of a resolution misses; and a request selects a profile and a
resource class, but nothing else of the context comes from its words.
-/

namespace PortageEngine.BuildCatalog

open List Library

variable {ext : Externals} {c : Catalog} {p : ProfileDefinition} {now : Nat}
  {req req' : ResolveRequest} {ctx ctx' : ResolvedBuildContext}

variable {seen values : List String}

theorem mem_validateEach {α : Type} {describe : String} {id : α → String}
    {check : α → Except String α} {xs ys : List α} (h : validateEach describe id check xs = .ok ys) :
    (∀ x ∈ xs, ∃ y ∈ ys, check x = .ok y) ∧ ∀ y ∈ ys, ∃ x ∈ xs, check x = .ok y := by
  simpa only [mapError_succeeds_iff] using mem_of_map_eq_ok (mapDistinct_ok h)

/-- Every entry that a profile refers to is in the catalog, on the profile's own channel. -/
structure Catalog.Covers (c : Catalog) (p : ProfileDefinition) : Prop where
  image : ∃ image, c.image? p.imageId = some image ∧ image.channel = p.channel
  mirrors : ∃ bundle, c.mirrorBundle? p.mirrorBundleId = some bundle ∧ bundle.channel = p.channel
  egress : ∃ policy, c.egress? p.egressPolicyId = some policy ∧ policy.channel = p.channel
  repositories : ∀ id ∈ p.repositoryIds, ∃ r, c.repository? id = some r ∧ r.channel = p.channel
  profileRepository : p.profileRepositoryId ∈ p.repositoryIds
  parents : ∀ parent ∈ p.parents, parent.repositoryId ∈ p.repositoryIds
  names : (p.repositoryIds.map fun id => (c.repository? id).map (·.name)).Nodup

theorem validateProfileRepositoryIds_ok {seen ids : List String}
    (h : validateProfileRepositoryIds c p seen ids = .ok ()) :
    (∀ id ∈ ids, ∃ r, c.repository? id = some r ∧ r.channel = p.channel ∧ r.name ∉ seen) ∧
      (ids.map fun id => (c.repository? id).map (·.name)).Nodup := by
  induction ids generalizing seen with
  | nil => simp
  | cons id rest ih =>
    unfold validateProfileRepositoryIds at h
    cases hr : c.repository? id with
    | none => simp [hr] at h
    | some r =>
      simp only [hr, require_bind_eq_ok, decide_eq_true_eq, Bool.not_eq_true',
        contains_eq_mem, decide_eq_false_iff_not] at h
      refine ⟨forall_mem_cons.mpr ⟨⟨r, hr, h.1, h.2.1⟩, ?_⟩, ?_⟩ <;> grind

theorem validateProfileParents_ok {parents : List ProfileParentDefinition}
    (h : validateProfileParents c p seen parents = .ok ()) :
    ∀ parent ∈ parents, parent.repositoryId ∈ p.repositoryIds := by
  induction parents generalizing seen with
  | nil => simp
  | cons parent rest ih =>
    replace h := passed h
    split at h
    · cases h
    rcases require_bind_eq_ok.mp h with ⟨hmem, h⟩
    replace h := passed (passed h)
    exact forall_mem_cons.mpr ⟨by simpa using hmem, ih h⟩

theorem covers_of_validateProfile (h : validateProfile ext c p = .ok ()) : c.Covers p := by
  replace h := passed (passed (passed (passed (passed h))))
  rcases bind_eq_ok.mp h with ⟨⟨⟩, hbindings, h⟩
  rcases bind_eq_ok.mp h with ⟨⟨⟩, hrepositories, h⟩
  rcases bind_eq_ok.mp h with ⟨⟨⟩, hparents, h⟩
  rcases bind_eq_ok.mp (passed h) with ⟨⟨⟩, hegress, _⟩
  rcases bind_eq_ok.mp hrepositories with ⟨⟨⟩, hids, hprofile⟩
  have hrepositories := validateProfileRepositoryIds_ok hids
  unfold validateProfileBindings at hbindings
  unfold validateProfileEgress at hegress
  cases himage : c.image? p.imageId with
  | none => simp [himage] at hbindings
  | some image =>
  cases hbundle : c.mirrorBundle? p.mirrorBundleId with
  | none => simp [himage, hbundle, require_bind_eq_ok] at hbindings
  | some bundle =>
  cases hpolicy : c.egress? p.egressPolicyId with
  | none => simp [hpolicy] at hegress
  | some policy =>
  cases hprofileRepository : c.repository? p.profileRepositoryId with
  | none => simp [hprofileRepository] at hprofile
  | some r =>
    simp only [himage, hbundle, require_bind_eq_ok, require_eq_ok, decide_eq_true_eq] at hbindings
    simp only [hpolicy, require_bind_eq_ok, decide_eq_true_eq] at hegress
    simp only [hprofileRepository, require_bind_eq_ok, contains_eq_mem,
      decide_eq_true_eq] at hprofile
    exact {
      image := ⟨image, himage, hbindings.2.2.1⟩
      mirrors := ⟨bundle, hbundle, hbindings.2.2.2⟩
      egress := ⟨policy, hpolicy, hegress.1⟩
      repositories := fun id hid => (hrepositories.1 id hid).imp fun r hr => ⟨hr.1, hr.2.1⟩
      profileRepository := hprofile.1
      parents := validateProfileParents_ok hparents
      names := hrepositories.2 }

theorem pinned_of_validateRepository {r r' : RepositoryDefinition}
    (h : validateRepository ext r = .ok r') (hstable : r'.channel = .stable) :
    r'.syncType = "git" ∧ isFullCommit r'.revision = true ∧ revisionRegex r'.revision = true := by
  replace h := passed (passed (passed (passed (passed h))))
  generalize (if r.location = "" then _ else r.location) = location at h
  split at h
  on_goal 1 => replace h := passed h
  all_goals
    simp only [bind_eq_ok, require_eq_ok, pure_eq_ok] at h
    rcases h with ⟨_, hrevision, _, _, _, hgit, _, hfull, rfl⟩
    have hne : r.revision ≠ "" := by
      intro hempty
      simp [hempty, isFullCommit, show r.channel = .stable from hstable] at hfull
    simp_all

theorem namedRepository_mem {requested found id : String} {ids : List String}
    (h : c.namedRepository p requested found ids = .ok id) : id = found ∨ id ∈ ids := by
  induction ids generalizing found with
  | nil => exact .inl (Except.ok.inj h).symm
  | cons first ids ih =>
    rcases bind_eq_ok.mp h with ⟨r, _, h⟩
    split at h
    · exact .inr ((ih (passed h)).elim (fun heq => heq ▸ mem_cons_self) (mem_cons_of_mem first))
    · exact (ih h).imp_right (mem_cons_of_mem first)

theorem resolveRepository_mem {requested id : String}
    (h : c.resolveRepository p requested = .ok id) : id ∈ p.repositoryIds := by
  unfold Catalog.resolveRepository at h
  split at h
  · simp_all
  rcases bind_eq_ok.mp h with ⟨found, hfound, h⟩
  rcases require_bind_eq_ok.mp h with ⟨hne, h⟩
  cases pure_eq_ok.mp h
  exact (namedRepository_mem hfound).resolve_left (by simpa using hne)

theorem authorizeRepository_ok {id : String} {r : RepositoryDefinition}
    (h : c.authorizeRepository p id = .ok r) : c.repository? id = some r := by
  replace h := passed h
  cases hr : c.repository? id <;> simp_all

theorem mem_uniqueSorted {v : String} :
    v ∈ uniqueSorted values ↔ v ∈ values ∧ v ≠ "" := by
  simp [uniqueSorted]

theorem nodup_uniqueSorted : (uniqueSorted values).Nodup :=
  (perm_insertionSort _ _).nodup_iff.mpr (nodup_dedup _)

theorem uniqueSorted_append {values more : List String} (h : ∀ v ∈ more, v ∈ values) :
    uniqueSorted (values ++ more) = uniqueSorted values := by
  refine List.Perm.eq_of_pairwise' (pairwise_insertionSort _ _) (pairwise_insertionSort _ _) ?_
  refine (perm_ext_iff_of_nodup (nodup_uniqueSorted) (nodup_uniqueSorted)).mpr fun v => ?_
  rw [mem_uniqueSorted, mem_uniqueSorted, mem_append]
  exact and_congr_left fun _ => ⟨fun hv => hv.elim id (h v), .inl⟩

theorem entry_eq_ok {α : Type} {found : Option α} {a : α} :
    entry found = .ok a ↔ found = some a := by
  cases found <;> simp [entry]

theorem resolveProfile_mem {id legacy : String} (h : c.resolveProfile id legacy = .ok p) :
    p ∈ c.profiles := by
  unfold Catalog.resolveProfile at h
  grind [mem_of_find?_eq_some, Catalog.profile?, Catalog.profileByLegacy?, entry_eq_ok]

/-- The repositories that a request names are those of the profile already. -/
theorem requested_sub {names requested : List String}
    (h : names.mapM (c.resolveRepository p) = .ok requested) :
    uniqueSorted (p.repositoryIds ++ requested) = uniqueSorted p.repositoryIds := by
  refine uniqueSorted_append fun id hid => ?_
  rcases (mem_of_map_eq_ok (map_of_mapM_eq_ok h)).2 id hid with ⟨_, _, hid⟩
  exact resolveRepository_mem hid

/-- What a request's own words can change: its profile, its resource class, and whether it is
accepted. -/
theorem resolveAt_eq (hp : c.resolveProfile req.profileId req.legacyProfile = .ok p)
    (hp' : c.resolveProfile req'.profileId req'.legacyProfile = .ok p)
    (hclass : selectedResourceClass p req.resourceClass = selectedResourceClass p req'.resourceClass)
    (h : c.resolveAt ext req now = .ok ctx) (h' : c.resolveAt ext req' now = .ok ctx') :
    ctx = ctx' := by
  have hresources : c.resolveResources p req.resourceClass = c.resolveResources p req'.resourceClass := by
    unfold Catalog.resolveResources
    rw [hclass]
  simp only [Catalog.resolveAt, bind_eq_ok, pure_eq_ok, hp, hp'] at h h'
  rcases h with ⟨_, ⟨⟩, _, _, _, _, image, himage, _, _, bundle, hbundle, _, _, repository,
    hrepository, parents, hparents, requested, hrequested, repositories, hrepositories,
    resources, hresource, policy, hpolicy, digest, hdigest, rfl⟩
  rcases h' with ⟨_, ⟨⟩, _, _, _, _, image', himage', _, _, bundle', hbundle', _, _, repository',
    hrepository', parents', hparents', requested', hrequested', repositories', hrepositories',
    resources', hresource', policy', hpolicy', digest', hdigest', rfl⟩
  rw [requested_sub hrequested] at hrepositories
  rw [requested_sub hrequested'] at hrepositories'
  simp_all

/-! ## Entries that are there -/

section Lookups

variable {α : Type} {found : Option α}

theorem entry_ne_nilEntry (h : ∃ a, found = some a) : entry found ≠ .error .nilEntry := by
  rcases h with ⟨a, rfl⟩
  nofun

theorem require_ne_nilEntry {condition : Bool} {text : String} :
    require condition (.refused text) ≠ .error ResolveError.nilEntry := by
  cases condition <;> nofun

theorem Catalog.Covers.resolveRepository_ne (h : c.Covers p) {requested : String} :
    c.resolveRepository p requested ≠ .error .nilEntry := by
  have hnamed : ∀ ids, (∀ id ∈ ids, id ∈ p.repositoryIds) → ∀ found,
      c.namedRepository p requested found ids ≠ .error .nilEntry := by
    intro ids hids
    induction ids with
    | nil => nofun
    | cons id ids ih =>
      have hrest := ih fun x hx => hids x (mem_cons_of_mem id hx)
      intro found
      rcases h.repositories id (hids id mem_cons_self) with ⟨r, hr, _⟩
      refine bind_ne_error (entry_ne_nilEntry ⟨r, hr⟩) fun r _ => ?_
      split
      · exact bind_ne_error require_ne_nilEntry fun _ _ => hrest id
      · exact hrest found
  unfold Catalog.resolveRepository
  split
  · nofun
  · exact bind_ne_error (hnamed _ (fun _ => id) "") fun _ _ =>
      bind_ne_error require_ne_nilEntry nofun

/-- No step of a resolution uses an entry that is not there. -/
theorem resolveAt_ne_nilEntry (hdefault : ∃ p, c.profiles.find? (·.isDefault) = some p)
    (hcovers : ∀ p ∈ c.profiles, c.Covers p) : c.resolveAt ext req now ≠ .error .nilEntry := by
  have hprofile : c.resolveProfile req.profileId req.legacyProfile ≠ .error .nilEntry := by
    rcases hdefault with ⟨p, hp⟩
    unfold Catalog.resolveProfile entry
    grind
  refine bind_ne_error hprofile fun p hp => ?_
  have hcovers := hcovers p (resolveProfile_mem hp)
  have hrepository : ∀ id ∈ p.repositoryIds, ∃ r, c.repository? id = some r :=
    fun id hid => (hcovers.repositories id hid).imp fun _ => And.left
  refine bind_ne_error require_ne_nilEntry fun _ _ => ?_
  refine bind_ne_error require_ne_nilEntry fun _ _ => ?_
  refine bind_ne_error (entry_ne_nilEntry (hcovers.image.imp fun _ => And.left)) fun image _ => ?_
  refine bind_ne_error require_ne_nilEntry fun _ _ => ?_
  refine bind_ne_error (entry_ne_nilEntry (hcovers.mirrors.imp fun _ => And.left)) fun bundle _ => ?_
  refine bind_ne_error require_ne_nilEntry fun _ _ => ?_
  refine bind_ne_error (entry_ne_nilEntry (hrepository _ hcovers.profileRepository)) fun _ _ => ?_
  refine bind_ne_error (mapM_ne_error fun parent hparent => bind_ne_error (entry_ne_nilEntry
    (hrepository _ (hcovers.parents parent hparent))) nofun) fun parents _ => ?_
  refine bind_ne_error (mapM_ne_error fun _ _ => hcovers.resolveRepository_ne) fun requested _ => ?_
  refine bind_ne_error (mapM_ne_error fun id _ => bind_ne_error require_ne_nilEntry fun _ _ => ?_)
    fun repositories _ => ?_
  · cases c.repository? id <;> nofun
  refine bind_ne_error ?_ fun resources _ => ?_
  · unfold Catalog.resolveResources
    grind
  refine bind_ne_error (entry_ne_nilEntry (hcovers.egress.imp fun _ => And.left)) fun policy _ => ?_
  refine bind_ne_error ?_ nofun
  cases policy.digest ext.policyHash <;> nofun

end Lookups

/-! ## Contexts -/

/-- What is promised of a context: its parts are the entries that the profile names, on the profile's
channel, its repositories are the profile's, and a stable build is pinned and fresh. -/
structure Promised (c : Catalog) (p : ProfileDefinition) (now : Nat) (ctx : ResolvedBuildContext) :
    Prop where
  image : c.image? p.imageId = some ctx.image
  mirrors : c.mirrorBundle? p.mirrorBundleId = some ctx.mirrorBundle
  egress : ∃ policy, c.egress? p.egressPolicyId = some policy ∧ policy.validate = .ok ctx.egressPolicy
  entries : (uniqueSorted p.repositoryIds).map c.repository? = ctx.repositories.map some
  channel : ctx.profileChannel = p.channel ∧ ctx.image.channel = p.channel ∧
    ctx.mirrorBundle.channel = p.channel ∧ ctx.egressPolicy.channel = p.channel
  repositories : ∀ r ∈ ctx.repositories, r.id ∈ p.repositoryIds ∧ r.channel = p.channel
  names : (ctx.repositories.map (·.name)).Nodup
  pinned : p.channel = .stable → ∀ r ∈ ctx.repositories,
    r.syncType = "git" ∧ isFullCommit r.revision = true ∧ revisionRegex r.revision = true
  fresh : p.channel = .stable → ∃ fresh ∈ ctx.mirrorBundle.freshUntil, now < fresh

theorem promised_of_resolveAt
    (hvalid : ∀ r ∈ c.repositories, ∃ r₀, validateRepository ext r₀ = .ok r) (hcovers : c.Covers p)
    (hp : c.resolveProfile req.profileId req.legacyProfile = .ok p)
    (h : c.resolveAt ext req now = .ok ctx) : Promised c p now ctx := by
  simp only [Catalog.resolveAt, bind_eq_ok, pure_eq_ok, entry_eq_ok, hp] at h
  rcases h with ⟨_, ⟨⟩, _, _, _, _, image, himage, _, _, bundle, hbundle, _, hfresh, _, _, _, _,
    requested, hrequested, repositories, hrepositories, _, _, policy, hpolicy, ⟨policy', digest⟩,
    hdigest, rfl⟩
  rcases hcovers.image with ⟨_, heq, himageChannel⟩
  cases heq.symm.trans himage
  rcases hcovers.mirrors with ⟨_, heq, hbundleChannel⟩
  cases heq.symm.trans hbundle
  rcases hcovers.egress with ⟨_, heq, hpolicyChannel⟩
  cases heq.symm.trans hpolicy
  rcases bind_eq_ok.mp (mapError_succeeds_iff.mp hdigest) with ⟨_, hpolicyValid, hdigest⟩
  cases pure_eq_ok.mp hdigest
  rw [requested_sub hrequested] at hrepositories
  have hentries : (uniqueSorted p.repositoryIds).map c.repository? = repositories.map some :=
    map_eq_of_map_eq_ok (map_of_mapM_eq_ok hrepositories) fun _ _ => authorizeRepository_ok
  have hids : ∀ id ∈ uniqueSorted p.repositoryIds, id ∈ p.repositoryIds :=
    fun id hid => (mem_uniqueSorted.mp hid).1
  have hallowed : ∀ r ∈ repositories,
      r ∈ c.repositories ∧ r.id ∈ p.repositoryIds ∧ r.channel = p.channel := by
    intro r hr
    rcases mem_map.mp (hentries ▸ mem_map_of_mem hr) with ⟨id, hid, hr⟩
    rcases hcovers.repositories id (hids id hid) with ⟨r', hr', hchannel⟩
    cases hr'.symm.trans hr
    have hname : r.id = id := by simpa using find?_some hr'
    exact ⟨mem_of_find?_eq_some hr', hname ▸ hids id hid, hchannel⟩
  refine ⟨himage, hbundle, ⟨policy, hpolicy, hpolicyValid⟩, hentries, ⟨rfl, himageChannel,
    hbundleChannel, (EgressPolicy.channel_validate hpolicyValid).trans hpolicyChannel⟩,
    fun r hr => (hallowed r hr).2, ?_, ?_, ?_⟩
  · have hnodup := (nodup_uniqueSorted).map_on fun x hx y hy =>
      inj_on_of_nodup_map hcovers.names (hids x hx) (hids y hy)
    have hnames := congrArg (List.map (Option.map (·.name))) hentries
    rw [map_map, map_map] at hnames
    exact List.Nodup.of_map some (by rw [map_map]; exact hnames ▸ hnodup)
  · intro hstable r hr
    rcases hallowed r hr with ⟨hmem, _, hchannel⟩
    rcases hvalid r hmem with ⟨r₀, hr₀⟩
    exact pinned_of_validateRepository hr₀ (hchannel.trans hstable)
  · intro hstable
    rw [hstable] at hfresh
    cases hfreshUntil : bundle.freshUntil with
    | none => simp [hfreshUntil] at hfresh
    | some fresh => exact ⟨fresh, rfl, by simpa [hfreshUntil] using hfresh⟩

/-- A catalog decides the context of a build: no lookup of a resolution misses, every profile it
selects has its entries, the context keeps the promises, and a request's own words change nothing
else. -/
structure ServerDetermined (ext : Externals) (c : Catalog) : Prop where
  found : ∀ req now, c.resolveAt ext req now ≠ .error .nilEntry
  covered : ∀ p ∈ c.profiles, c.Covers p
  promised : ∀ now req p ctx, c.resolveProfile req.profileId req.legacyProfile = .ok p →
    c.resolveAt ext req now = .ok ctx → Promised c p now ctx
  same : ∀ now req req' p ctx ctx', c.resolveProfile req.profileId req.legacyProfile = .ok p →
    c.resolveProfile req'.profileId req'.legacyProfile = .ok p →
    selectedResourceClass p req.resourceClass = selectedResourceClass p req'.resourceClass →
    c.resolveAt ext req now = .ok ctx → c.resolveAt ext req' now = .ok ctx' → ctx = ctx'

/-- What `Validate` leaves of a catalog it accepts decides the contexts of builds. -/
theorem serverDetermined_of_validate (ext : Externals) (c₀ c : Catalog)
    (h : c₀.validate ext = .ok c) : ServerDetermined ext c := by
  simp only [Catalog.validate, bind_eq_ok, pure_eq_ok, require_eq_ok] at h
  rcases h with ⟨_, _, _, _, repositories, hrepositories, _, _, _, _, _, _, policies, _, _, hprofiles,
    _, _, _, _, _, _, _, hdefault, rfl⟩
  have hcovers : ∀ p ∈ c₀.profiles,
      Catalog.Covers { c₀ with repositories := repositories, egressPolicies := policies } p := by
    intro p hp
    rcases (mem_validateEach hprofiles).1 p hp with ⟨_, _, hvalid⟩
    rcases map_eq_ok.mp hvalid with ⟨⟨⟩, hvalid, _⟩
    exact covers_of_validateProfile hvalid
  refine ⟨fun req now => resolveAt_ne_nilEntry ?_ hcovers, hcovers, ?_, ?_⟩
  · cases hfind : c₀.profiles.find? (·.isDefault) with
    | none => simp [filter_eq_nil_iff.mpr (find?_eq_none.mp hfind)] at hdefault
    | some p => exact ⟨p, rfl⟩
  · intro now req p ctx hp
    refine promised_of_resolveAt (fun r hr => ?_) (hcovers p (resolveProfile_mem hp)) hp
    exact ((mem_validateEach hrepositories).2 r hr).imp fun _ => And.right
  · exact fun now req req' p ctx ctx' hp hp' hclass hctx hctx' => resolveAt_eq hp hp' hclass hctx hctx'

/-! ## A stable catalog -/

/-- Every address is one of the server of the example, and every digest consists of zeros. -/
def exampleExternals : Externals where
  parseUrl := fun _ => some ⟨"https", "git.example.com", "git.example.com", "", "", "", false⟩
  cleanPath := id
  policyHash := fun _ => String.ofList (replicate 64 '0')

/-- A repository without a location of its own. -/
def exampleRepository (id name : String) : RepositoryDefinition where
  id := id
  name := name
  syncType := "git"
  syncUri := "https://git.example.com/" ++ name
  revision := String.ofList (replicate 40 'a')
  channel := .stable

/-- An overlay whose profile builds upon that of the main repository. -/
def stableCatalog : Catalog where
  version := 3
  profiles := [{
    id := "overlay/amd64"
    arch := "amd64"
    profilePath := "overlay/amd64"
    binhostPath := "releases/amd64/binpackages/23.0/x86-64"
    profileRepositoryId := "overlay-7d"
    parents := [⟨"gentoo-5c", "default/linux/amd64/23.0"⟩]
    repositoryIds := ["overlay-7d", "gentoo-5c"]
    imageId := "image"
    mirrorBundleId := "mirrors"
    requiredFeatures := ["sandbox"]
    egressPolicyId := "web"
    isDefault := true
    channel := .stable }]
  repositories := [exampleRepository "gentoo-5c" "gentoo", exampleRepository "overlay-7d" "overlay"]
  images := [{
    id := "image"
    profileId := "overlay/amd64"
    generation := "1"
    provider := .pve
    arch := "amd64"
    buildMode := "native-gentoo"
    template := "overlay"
    digest := "sha256:" ++ String.ofList (replicate 64 '0')
    rootfsSource := "stage3"
    channel := .stable }]
  mirrorBundles := [{
    id := "mirrors"
    digest := "sha256:" ++ String.ofList (replicate 64 '0')
    createdAt := some 0
    freshUntil := some 1000
    advisoryWatermark := "GLSA-1"
    channel := .stable }]
  resourceClasses := [mediumClass]
  egressPolicies := [webPolicy]

/-- A request that names a repository by its name is resolved. -/
theorem serverDetermined_stable :
    ∃ c, stableCatalog.validate exampleExternals = .ok c ∧ ServerDetermined exampleExternals c ∧
      ∃ ctx, c.resolveAt exampleExternals ⟨"", "", "amd64", ["overlay"], " medium ", none⟩ 999 =
        .ok ctx :=
  have hvalid : stableCatalog.validate exampleExternals = .ok _ := rfl
  ⟨_, hvalid, serverDetermined_of_validate _ _ _ hvalid, _, rfl⟩

end PortageEngine.BuildCatalog
