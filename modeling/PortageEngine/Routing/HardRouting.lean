import PortageEngine.Routing.Capabilities

/-!
# Which contexts an executor serves

An executor that advertises the labels of some contexts is `eligible` for the phases of another
context exactly if one of them has the environment of the other context, and one of them, not
necessarily the same, has its egress policy.  The environment is one because the capacity pool is one
label: equal pools have equal hashes, and equal hashes are made of equal parts.
-/

namespace PortageEngine.Routing

open List Library Library.Decimal Library.Text Documents

/-! ## Texts -/

variable {s : String}

theorem toList_trimSpace : (trimSpace s).toList = trimChars s.toList :=
  String.toList_ofList

theorem trimSpace_trimSpace : trimSpace (trimSpace s) = trimSpace s := by
  rw [trimSpace, toList_trimSpace, trimChars_of_trimmed (trimmed_trimChars _)]
  rfl

variable {front back cs : List Char} {l kind value poolId : String} {e e' : Environment}
  {required advertised : List String} {contexts : List Context}

theorem trimChars_append_of_noSpace (hfront : Trimmed front) (hne : front ≠ [])
    (h : ∀ c ∈ trimChars (front ++ back), isSpace c = false) :
    trimChars (front ++ back) = front ++ trimChars back := by
  rcases exists_cons_of_ne_nil hne with ⟨first, rest, rfl⟩
  have hdrop : ((first :: rest) ++ back).dropWhile isSpace = (first :: rest) ++ back := by
    simp [hfront.1 first (by simp)]
  have htrim : trimChars ((first :: rest) ++ back) =
      ((back.reverse ++ (first :: rest).reverse).dropWhile isSpace).reverse := by
    rw [trimChars, hdrop, reverse_append]
  by_cases hblank : back.reverse.dropWhile isSpace = []
  · have hall : ∀ c ∈ back, isSpace c = true := by
      intro c hc
      exact dropWhile_eq_nil_iff.mp hblank c (mem_reverse.mpr hc)
    have hback : trimChars back = [] := by
      rw [trimChars, dropWhile_eq_nil_iff.mpr hall]
      rfl
    rw [hback, append_nil]
    exact trimChars_append hfront hne hall
  · have hsplit : trimChars ((first :: rest) ++ back) =
        (first :: rest) ++ (back.reverse.dropWhile isSpace).reverse := by
      rw [htrim, dropWhile_append, if_neg (by simpa using hblank), reverse_append,
        reverse_reverse]
    -- what is left of the back starts with its first character, which is no blank
    have hhead : back.dropWhile isSpace = back := by
      have hpre : (back.reverse.dropWhile isSpace).reverse <+: back := by
        rw [← reverse_suffix, reverse_reverse]
        exact dropWhile_suffix _
      cases hkept : (back.reverse.dropWhile isSpace).reverse with
      | nil => exact absurd (reverse_eq_nil_iff.mp hkept) hblank
      | cons c kept =>
        rw [hkept] at hpre
        rcases hpre with ⟨behind, rfl⟩
        have hc : isSpace c = false := by
          refine h c ?_
          rw [hsplit, hkept]
          simp
        simp [hc]
    rw [hsplit, trimChars, hhead]

theorem after_last_eq {x : Char} {front' back' : List Char} (hback : x ∉ back) (hback' : x ∉ back')
    (h : front ++ x :: back = front' ++ x :: back') : back = back' := by
  have htake : ∀ front back : List Char, x ∉ back →
      ((front ++ x :: back).reverse.takeWhile (· ≠ x)).reverse = back := by
    intro front back hnot
    rw [reverse_append, reverse_cons, append_assoc,
      takeWhile_append_of_pos (by
        intro c hc
        have hne : c ≠ x := fun heq => hnot (heq ▸ mem_reverse.mp hc)
        simpa using hne)]
    simp
  rw [← htake front back hback, h, htake front' back' hback']

/-! ## Labels -/

theorem toList_label :
    (label kind value).toList = (kind.toList ++ [':']) ++ value.toList := by
  simp [label]

def isLabelChar (c : Char) : Bool :=
  c.isAlphanum || "+._/@:-".toList.contains c

theorem isLabelChar_ne {c : Char} (h : isLabelChar c = true) : isSpace c = false ∧ c ≠ '\x00' := by
  have hall : ("+._/@:-".toList.all fun d => 33 ≤ d.toNat && d.toNat ≤ 126) = true := by decide
  have hplain : ∀ d ∈ "+._/@:-".toList, 33 ≤ d.toNat ∧ d.toNat ≤ 126 := by
    simpa only [all_eq_true, Bool.and_eq_true, decide_eq_true_eq] using hall
  have hcode : 33 ≤ c.toNat ∧ c.toNat ≤ 126 := by
    simp only [isLabelChar, Bool.or_eq_true, Char.isAlphanum, Char.isAlpha, Char.isUpper, Char.isLower,
      Char.isDigit, Bool.and_eq_true, decide_eq_true_eq, contains_iff_mem] at h
    rcases h with ((h | h) | h) | h
    · exact ⟨le_trans (by decide) h.1, le_trans h.2 (by decide)⟩
    · exact ⟨le_trans (by decide) h.1, le_trans h.2 (by decide)⟩
    · exact ⟨le_trans (by decide) h.1, le_trans h.2 (by decide)⟩
    · exact hplain c h
  have hblank : c ≠ ' ' := by
    rintro rfl
    exact absurd hcode.1 (by decide)
  constructor
  · simp only [isSpace, hblank, decide_false, Bool.false_or, Bool.or_eq_false_iff,
      Bool.and_eq_false_iff, decide_eq_false_iff_not]
    omega
  · rintro rfl
    exact absurd hcode.1 (by decide)

theorem isLabelChar_of_isKind (h : isKind cs = true) :
    ∀ c ∈ cs, isLabelChar c = true := by
  have hlower : ∀ c : Char, c.isLower = true → isLabelChar c = true := by
    intro c hc
    simp [isLabelChar, Char.isAlphanum, Char.isAlpha, hc]
  cases cs with
  | nil => cases h
  | cons first rest =>
    simp only [isKind, Bool.and_eq_true, all_eq_true, Bool.or_eq_true, decide_eq_true_eq] at h
    refine forall_mem_cons.mpr ⟨hlower first h.1.1, ?_⟩
    intro c hc
    rcases h.2 c hc with (hc | hc) | rfl
    · exact hlower c hc
    · simp [isLabelChar, Char.isAlphanum, hc]
    · decide

theorem isLabelChar_of_isValue (h : isValue cs = true) :
    ∀ c ∈ cs, isLabelChar c = true := by
  cases cs with
  | nil => cases h
  | cons first rest =>
    simp only [isValue, Bool.and_eq_true, all_eq_true] at h
    refine forall_mem_cons.mpr ⟨?_, h.2⟩
    simp [isLabelChar, h.1.1]

theorem isLabelChar_of_pattern (h : executorCapabilityPattern l = true) :
    ∀ c ∈ l.toList, isLabelChar c = true := by
  unfold executorCapabilityPattern at h
  cases hvalue : l.toList.dropWhile (· ≠ ':') with
  | nil =>
    rw [hvalue] at h
    cases h
  | cons colon value =>
    simp only [hvalue, Bool.and_eq_true] at h
    have hcolon : colon = ':' := by
      have hnot := head?_dropWhile_not (fun c => decide (c ≠ ':')) l.toList
      rw [hvalue] at hnot
      simpa using hnot
    intro c hc
    rw [← takeWhile_append_dropWhile (p := fun c => decide (c ≠ ':')) (l := l.toList), hvalue,
      mem_append, mem_cons] at hc
    rcases hc with hc | rfl | hc
    · exact isLabelChar_of_isKind h.1 c hc
    · rw [hcolon]
      decide
    · exact isLabelChar_of_isValue h.2 c hc

theorem trimmed_of_noSpace (h : ∀ c ∈ cs, isSpace c = false) : Trimmed cs :=
  ⟨fun c hc => h c (mem_of_mem_head? hc), fun c hc => h c (mem_of_mem_getLast? hc)⟩

def kinds : List String :=
  ["phase", "capacity-pool", "zone", "provider", "arch", "build-mode", "profile", "image", "egress"]

theorem kinds_plain : ∀ kind ∈ kinds, ':' ∉ kind.toList ∧ ∀ c ∈ kind.toList ++ [':'], isSpace c = false := by
  have hall : (kinds.all fun kind => !kind.toList.contains ':' &&
      (kind.toList ++ [':']).all fun c => !isSpace c) = true := by decide
  simpa only [all_eq_true, Bool.and_eq_true, Bool.not_eq_true', contains_eq_mem,
    decide_eq_false_iff_not] using hall

theorem trimSpace_label (hkind : kind ∈ kinds)
    (h : executorCapabilityPattern (trimSpace (label kind value)) = true) :
    trimSpace (label kind value) = label kind (trimSpace value) := by
  have hchars : ∀ c ∈ trimChars ((kind.toList ++ [':']) ++ value.toList), isSpace c = false := by
    intro c hc
    rw [← toList_label, ← toList_trimSpace] at hc
    exact (isLabelChar_ne (isLabelChar_of_pattern h c hc)).1
  refine String.toList_inj.mp ?_
  rw [toList_trimSpace, toList_label, toList_label, toList_trimSpace]
  exact trimChars_append_of_noSpace (trimmed_of_noSpace (kinds_plain kind hkind).2) (by simp) hchars

theorem label_inj {kind' value' : String} (hkind : kind ∈ kinds) (hkind' : kind' ∈ kinds)
    (h : label kind value = label kind' value') : kind = kind' ∧ value = value' := by
  have hlist := congrArg String.toList h
  rw [toList_label, toList_label, append_assoc, append_assoc] at hlist
  have htake : ∀ cs rest : List Char, ':' ∉ cs →
      (cs ++ ([':'] ++ rest)).takeWhile (· ≠ ':') = cs := by
    intro cs rest hnot
    rw [takeWhile_append_of_pos (by
      intro c hc
      have hne : c ≠ ':' := fun heq => hnot (heq ▸ hc)
      simpa using hne)]
    simp
  have hfront : kind.toList = kind'.toList := by
    rw [← htake kind.toList value.toList (kinds_plain kind hkind).1, hlist,
      htake kind'.toList value'.toList (kinds_plain kind' hkind').1]
  rw [hfront] at hlist
  exact ⟨String.toList_inj.mp hfront,
    String.toList_inj.mp (append_cancel_left (append_cancel_left hlist))⟩

theorem trimSpace_imageLabel {id generation : String}
    (h : executorCapabilityPattern (trimSpace (label "image" (id ++ "@" ++ generation))) = true) :
    trimSpace (label "image" (id ++ "@" ++ generation)) =
      label "image" (trimSpace id ++ "@" ++ trimSpace generation) := by
  have hsplit : (label "image" (id ++ "@" ++ generation)).toList =
      ("image:".toList ++ id.toList ++ ['@']) ++ generation.toList := by
    simp [label]
  have hchars : ∀ c ∈ trimChars (("image:".toList ++ id.toList ++ ['@']) ++ generation.toList),
      isSpace c = false := by
    intro c hc
    rw [← hsplit, ← toList_trimSpace] at hc
    exact (isLabelChar_ne (isLabelChar_of_pattern h c hc)).1
  have hfront : Trimmed ("image:".toList ++ id.toList ++ ['@']) := by
    constructor
    · intro c hc
      have hi : c = 'i' := by simpa [eq_comm] using hc
      rw [hi]
      decide
    · intro c hc
      rw [getLast?_concat] at hc
      rw [← Option.mem_some.mp hc]
      decide
  have htrim := trimChars_append_of_noSpace hfront (by simp) hchars
  rw [htrim] at hchars
  -- the first of the two texts has no blanks at all
  have hid : trimChars id.toList = id.toList :=
    trimChars_eq_self fun c hc => hchars c (by simp [hc])
  refine String.toList_inj.mp ?_
  rw [toList_trimSpace, hsplit, htrim]
  simp [label, toList_trimSpace, hid]

/-! ## Requirements -/

variable {hash : String → List (Fin 16)} {c : Context} {phase : String}

theorem mem_normalize {labels out : List String} (h : normalizeExecutorCapabilities labels = .ok out) :
    (∀ l, l ∈ out ↔ ∃ x ∈ labels, trimSpace x = l) ∧
      ∀ x ∈ labels, executorCapabilityPattern (trimSpace x) = true := by
  replace h := passed h
  rcases bind_eq_ok.mp h with ⟨⟨⟩, hvalid, h⟩
  constructor
  · intro l
    rw [← pure_eq_ok.mp h, mem_insertionSort, mem_dedup, mem_map]
  · intro x hx
    exact require_eq_ok.mp (forM_eq_ok.mp hvalid x hx)

def environmentLabels (hash : String → List (Fin 16)) (e : Environment) (phase : String) :
    List String :=
  [label "phase" phase, label "capacity-pool" (poolText hash e), label "zone" e.executionZone,
    label "provider" e.provider, label "arch" e.arch, label "build-mode" e.buildMode,
    label "profile" e.profileId, label "image" (e.imageId ++ "@" ++ e.imageGeneration)]

/-- The egress policy of a context, if it names one and its digest. -/
def egress? (c : Context) : Option String :=
  if c.egressPolicyId ≠ "" && c.egressPolicyDigest ≠ "" then
    some (trimSpace (c.egressPolicyId ++ "@" ++ c.egressPolicyDigest))
  else none

theorem label_of_requirement
    (hvalid : ∀ x ∈ contextLabels c phase poolId, executorCapabilityPattern (trimSpace x) = true)
    (kind value : String) (hkind : kind ∈ kinds)
    (hmem : label kind value ∈ contextLabels c phase poolId) :
    trimSpace (label kind value) = label kind (trimSpace value) ∧
      ∀ ch ∈ (trimSpace value).toList, isLabelChar ch = true := by
  have hpattern := hvalid _ hmem
  have htrim := trimSpace_label hkind hpattern
  refine ⟨htrim, ?_⟩
  intro ch hch
  rw [htrim] at hpattern
  exact isLabelChar_of_pattern hpattern ch (by simp [toList_label, hch])

theorem trimSpace_executionZone (c : Context) : trimSpace (executionZone c) = executionZone c := by
  unfold executionZone
  split
  · decide
  · exact trimSpace_trimSpace

theorem trimSpace_of_labelChars (h : ∀ ch ∈ s.toList, isLabelChar ch = true) :
    trimSpace s = s := by
  rw [trimSpace, trimChars_eq_self fun ch hch => (isLabelChar_ne (h ch hch)).1, String.ofList_toList]

theorem digitChar_plain : ∀ d : Fin 16,
    isLabelChar d.val.digitChar = true ∧ d.val.digitChar ≠ '-' := by
  decide

theorem labelChars_parts
    (hvalid : ∀ x ∈ contextLabels c phase poolId, executorCapabilityPattern (trimSpace x) = true) :
    ∀ part ∈ (environment c).parts, ∀ ch ∈ part.toList, isLabelChar ch = true := by
  have hlabel := label_of_requirement hvalid
  have hzone := (hlabel "zone" (executionZone c) (by decide) (by simp [contextLabels])).2
  rw [trimSpace_executionZone] at hzone
  have himage := hvalid (label "image" (c.imageId ++ "@" ++ c.imageGeneration))
    (by simp [contextLabels])
  rw [trimSpace_imageLabel himage] at himage
  have himage := isLabelChar_of_pattern himage
  simp only [Environment.parts, environment, forall_mem_cons, not_mem_nil, false_imp_iff,
    forall_true_iff, and_true]
  refine ⟨?_, hzone, ?_, ?_, ?_, ?_, ?_⟩
  · exact (hlabel "provider" c.provider (by decide) (by simp [contextLabels])).2
  · exact (hlabel "arch" c.arch (by decide) (by simp [contextLabels])).2
  · exact (hlabel "build-mode" c.buildMode (by decide) (by simp [contextLabels])).2
  · exact (hlabel "profile" c.profileId (by decide) (by simp [contextLabels])).2
  · exact fun ch hch => himage ch (by simp [label, hch])
  · exact fun ch hch => himage ch (by simp [label, hch])

theorem labelChars_poolText (h : ∀ part ∈ e.parts, ∀ ch ∈ part.toList, isLabelChar ch = true) :
    ∀ ch ∈ (poolText hash e).toList, isLabelChar ch = true := by
  intro ch hch
  have hpart : ∀ part ∈ e.parts, ch ∈ part.toList → isLabelChar ch = true :=
    fun part hpart => h part hpart ch
  have hdash : isLabelChar '-' = true := by decide
  simp only [poolText, hexText, String.toList_append, String.toList_ofList, mem_append,
    mem_map] at hch
  rcases hch with (((((hch | hch) | hch) | hch) | hch) | hch) | ⟨d, _, rfl⟩
  · exact hpart _ (by simp [Environment.parts]) hch
  · rw [mem_singleton.mp hch]
    exact hdash
  · exact hpart _ (by simp [Environment.parts]) hch
  · rw [mem_singleton.mp hch]
    exact hdash
  · exact hpart _ (by simp [Environment.parts]) hch
  · rw [mem_singleton.mp hch]
    exact hdash
  · exact (digitChar_plain d).1

/-- What a context requires: the labels of its environment and that of its egress policy. -/
theorem requirements_ok (h : phaseCapabilityRequirements hash (some c) phase = .ok required) :
    phase ∈ phases ∧ (∀ part ∈ (environment c).parts, '\x00' ∉ part.toList) ∧
      ∀ l, l ∈ required ↔ l ∈ environmentLabels hash (environment c) phase ∨
        ∃ p, egress? c = some p ∧ l = label "egress" p := by
  rcases require_bind_eq_ok.mp h with ⟨hphase, h⟩
  rcases bind_eq_ok.mp h with ⟨poolId, hpool, h⟩
  replace hpool := passed hpool
  rw [← pure_eq_ok.mp hpool] at h
  rcases mem_normalize h with ⟨hmem, hvalid⟩
  have hphase : phase ∈ phases := by simpa using hphase
  have hparts := labelChars_parts hvalid
  refine ⟨hphase, ?_, ?_⟩
  · intro part hpart hnul
    exact (isLabelChar_ne (hparts part hpart _ hnul)).2 rfl
  have hlabel := label_of_requirement hvalid
  have htrimPhase : ∀ p ∈ phases, trimSpace p = p := by decide
  have hsame : ∀ kind value, kind ∈ kinds →
      label kind value ∈ contextLabels c phase (poolText hash (environment c)) →
      trimSpace (label kind value) = label kind (trimSpace value) :=
    fun kind value hkind hmem => (hlabel kind value hkind hmem).1
  have henvironment : ([label "phase" phase, label "capacity-pool" (poolText hash (environment c)),
      label "zone" (executionZone c), label "provider" c.provider, label "arch" c.arch,
      label "build-mode" c.buildMode, label "profile" c.profileId,
      label "image" (c.imageId ++ "@" ++ c.imageGeneration)].map trimSpace) =
      environmentLabels hash (environment c) phase := by
    simp only [map_cons, map_nil]
    rw [hsame "phase" phase (by decide) (by simp [contextLabels]), htrimPhase phase hphase,
      hsame "capacity-pool" _ (by decide) (by simp [contextLabels]),
      trimSpace_of_labelChars (labelChars_poolText hparts),
      hsame "zone" _ (by decide) (by simp [contextLabels]), trimSpace_executionZone,
      hsame "provider" _ (by decide) (by simp [contextLabels]),
      hsame "arch" _ (by decide) (by simp [contextLabels]),
      hsame "build-mode" _ (by decide) (by simp [contextLabels]),
      hsame "profile" _ (by decide) (by simp [contextLabels]),
      trimSpace_imageLabel (hvalid _ (by simp [contextLabels]))]
    rfl
  intro l
  rw [hmem]
  constructor
  · rintro ⟨x, hx, rfl⟩
    rcases mem_append.mp hx with hx' | hx'
    · exact .inl (henvironment ▸ mem_map_of_mem hx')
    unfold egressLabels at hx'
    unfold egress?
    split at hx'
    · rename_i hpolicy
      rw [if_pos hpolicy]
      refine .inr ⟨_, rfl, ?_⟩
      rw [mem_singleton.mp hx'] at hx ⊢
      exact hsame "egress" _ (by decide) hx
    · cases hx'
  · rintro (hl | ⟨p, hp, rfl⟩)
    · rw [← henvironment] at hl
      rcases mem_map.mp hl with ⟨x, hx, rfl⟩
      exact ⟨x, mem_append_left _ hx, rfl⟩
    · unfold egress? at hp
      split at hp
      · rename_i hpolicy
        cases hp
        have hx : label "egress" (c.egressPolicyId ++ "@" ++ c.egressPolicyDigest) ∈
            contextLabels c phase (poolText hash (environment c)) := by
          refine mem_append_right _ ?_
          rw [egressLabels, if_pos hpolicy]
          exact mem_singleton_self _
        exact ⟨_, hx, hsame "egress" _ (by decide) hx⟩
      · cases hp

/-! ## Pools -/

theorem hash_eq_of_poolText (h : poolText hash e = poolText hash e') :
    hash e.key = hash e'.key := by
  have hdash : ∀ digits, '-' ∉ (hexText digits).toList := by
    intro digits hmem
    rw [hexText, String.toList_ofList] at hmem
    rcases mem_map.mp hmem with ⟨d, _, hd⟩
    exact (digitChar_plain d).2 hd
  have hinj : ∀ d d' : Fin 16, d.val.digitChar = d'.val.digitChar → d = d' := by decide
  have hsplit : ∀ e : Environment, (poolText hash e).toList =
      (e.provider ++ "-" ++ e.executionZone ++ "-" ++ e.arch).toList ++
        '-' :: (hexText (hash e.key)).toList := by
    simp [poolText]
  have hlist := congrArg String.toList h
  rw [hsplit, hsplit] at hlist
  have hdigits := after_last_eq (hdash _) (hdash _) hlist
  rw [hexText, hexText, String.toList_ofList, String.toList_ofList] at hdigits
  exact map_injective_iff.mpr hinj hdigits

theorem environment_eq_of_key (hnul : ∀ part ∈ e.parts, '\x00' ∉ part.toList)
    (hnul' : ∀ part ∈ e'.parts, '\x00' ∉ part.toList) (h : e.key = e'.key) : e = e' := by
  have hsplit : ∀ e : Environment, (∀ part ∈ e.parts, '\x00' ∉ part.toList) →
      List.splitOn '\x00' e.key.toList = e.parts.map String.toList := by
    intro e hnul
    rw [Environment.key, String.toList_ofList]
    refine splitOn_intercalate _ ?_ (by simp [Environment.parts])
    intro l hl
    rcases mem_map.mp hl with ⟨part, hpart, rfl⟩
    exact hnul part hpart
  have hparts : e.parts.map String.toList = e'.parts.map String.toList := by
    rw [← hsplit e hnul, ← hsplit e' hnul', h]
  have heq : e.parts = e'.parts :=
    map_injective_iff.mpr (fun _ _ => String.toList_inj.mp) hparts
  cases e
  cases e'
  simpa [Environment.parts] using heq

/-- What the hash is taken of for some contexts. -/
def keys (contexts : List Context) : Set String :=
  {k | ∃ c ∈ contexts, k = (environment c).key}

theorem environment_eq_of_poolText {a b : Context} (hhash : Set.InjOn hash (keys contexts))
    (ha : a ∈ contexts) (hb : b ∈ contexts)
    (hnul : ∀ part ∈ (environment a).parts, '\x00' ∉ part.toList)
    (hnul' : ∀ part ∈ (environment b).parts, '\x00' ∉ part.toList)
    (h : poolText hash (environment a) = poolText hash (environment b)) :
    environment a = environment b :=
  environment_eq_of_key hnul hnul'
    (hhash ⟨a, ha, rfl⟩ ⟨b, hb, rfl⟩ (hash_eq_of_poolText h))

/-! ## Executors -/

theorem trimSpace_of_mem_requirements
    (h : phaseCapabilityRequirements hash (some c) phase = .ok required) (hl : l ∈ required) :
    trimSpace l = l := by
  replace h := passed h
  rcases bind_eq_ok.mp h with ⟨_, _, h⟩
  rcases ((mem_normalize h).1 l).mp hl with ⟨x, _, rfl⟩
  exact trimSpace_trimSpace

theorem resolveExecutorCapabilities_ok
    (h : resolveExecutorCapabilities hash contexts = .ok advertised) :
    (∀ s ∈ contexts, ∀ phase ∈ phases, ∃ required,
      phaseCapabilityRequirements hash (some s) phase = .ok required ∧
        ∀ l ∈ required, l ∈ advertised) ∧
    ∀ l ∈ advertised, ∃ s ∈ contexts, ∃ phase ∈ phases, ∃ required,
      phaseCapabilityRequirements hash (some s) phase = .ok required ∧ l ∈ required := by
  rcases bind_eq_ok.mp h with ⟨lists, hlists, h⟩
  rcases mem_of_map_eq_ok (map_of_mapM_eq_ok hlists) with ⟨hleft, hright⟩
  have hmem := (mem_normalize h).1
  have hpair : ∀ p : Context × String,
      p ∈ (contexts.flatMap fun c => phases.map fun phase => (c, phase)) ↔
        p.1 ∈ contexts ∧ p.2 ∈ phases := by
    simp
  constructor
  · intro s hs phase hphase
    rcases hleft (s, phase) ((hpair _).mpr ⟨hs, hphase⟩) with ⟨required, hrequired, hok⟩
    refine ⟨required, hok, ?_⟩
    intro l hl
    exact (hmem l).mpr ⟨l, mem_flatten.mpr ⟨required, hrequired, hl⟩,
      trimSpace_of_mem_requirements hok hl⟩
  · intro l hl
    rcases (hmem l).mp hl with ⟨x, hx, rfl⟩
    rcases mem_flatten.mp hx with ⟨required, hrequired, hx⟩
    rcases hright required hrequired with ⟨p, hp, hok⟩
    have hin := (hpair p).mp hp
    refine ⟨p.1, hin.1, p.2, hin.2, required, hok, ?_⟩
    rw [trimSpace_of_mem_requirements hok hx]
    exact hx

theorem kind_of_mem_environmentLabels (h : label kind value ∈ environmentLabels hash e phase)
    (hkind : kind ∈ kinds) :
    (kind = "capacity-pool" → value = poolText hash e) ∧ kind ≠ "egress" := by
  simp only [environmentLabels, mem_cons, not_mem_nil, or_false] at h
  rcases h with h | h | h | h | h | h | h | h
  all_goals
    rcases label_inj hkind (by decide) h with ⟨rfl, rfl⟩
    exact ⟨by simp, by decide⟩

theorem eligible_iff (hadvertised : resolveExecutorCapabilities hash contexts = .ok advertised)
    (hrequired : phaseCapabilityRequirements hash (some c) phase = .ok required)
    (hhash : Set.InjOn hash (keys (c :: contexts))) :
    eligible advertised required = true ↔
      (∃ s ∈ contexts, environment s = environment c) ∧
        ∀ p, egress? c = some p → ∃ s ∈ contexts, egress? s = some p := by
  rcases resolveExecutorCapabilities_ok hadvertised with ⟨hof, hfrom⟩
  rcases requirements_ok hrequired with ⟨hphase, hnul, hmem⟩
  have heligible : eligible advertised required = true ↔ ∀ l ∈ required, l ∈ advertised := by
    simp [eligible]
  rw [heligible]
  constructor
  · intro hall
    constructor
    · have hpool : label "capacity-pool" (poolText hash (environment c)) ∈ required :=
        (hmem _).mpr (.inl (by simp [environmentLabels]))
      rcases hfrom _ (hall _ hpool) with ⟨s, hs, phase', _, required', hok, hl⟩
      rcases requirements_ok hok with ⟨_, hnul', hmem'⟩
      rcases (hmem' _).mp hl with hl | ⟨p, _, hl⟩
      · have hsame := (kind_of_mem_environmentLabels hl (by decide)).1 rfl
        exact ⟨s, hs, environment_eq_of_poolText hhash (mem_cons_of_mem c hs)
          mem_cons_self hnul' hnul hsame.symm⟩
      · exact absurd (label_inj (by decide) (by decide) hl).1 (by decide)
    · intro p hp
      have hegress : label "egress" p ∈ required := (hmem _).mpr (.inr ⟨p, hp, rfl⟩)
      rcases hfrom _ (hall _ hegress) with ⟨s, hs, phase', _, required', hok, hl⟩
      rcases ((requirements_ok hok).2.2 _).mp hl with hl | ⟨p', hp', hl⟩
      · exact absurd rfl (kind_of_mem_environmentLabels hl (by decide)).2
      · rw [(label_inj (by decide) (by decide) hl).2]
        exact ⟨s, hs, hp'⟩
  · rintro ⟨⟨s, hs, hsame⟩, hegress⟩ l hl
    rcases (hmem l).mp hl with hl | ⟨p, hp, rfl⟩
    · rcases hof s hs phase hphase with ⟨required', hok, hall⟩
      exact hall l (((requirements_ok hok).2.2 l).mpr (.inl (hsame ▸ hl)))
    rcases hegress p hp with ⟨s', hs', hp'⟩
    rcases hof s' hs' phase hphase with ⟨required', hok, hall⟩
    exact hall _ (((requirements_ok hok).2.2 _).mpr (.inr ⟨p, hp', rfl⟩))

/-- Hard routing as the labels have it: an executor of some contexts takes the phases of another context
exactly if the environment of one of them and the egress policy of one of them are those of the other
context; and equal capacity pools have equal environments. -/
theorem hard_routing (hash : String → List (Fin 16)) :
    (∀ (contexts : List Context) (c : Context) (phase : String) (advertised required : List String),
      resolveExecutorCapabilities hash contexts = .ok advertised →
      phaseCapabilityRequirements hash (some c) phase = .ok required →
      Set.InjOn hash (keys (c :: contexts)) →
      (eligible advertised required = true ↔
        (∃ s ∈ contexts, environment s = environment c) ∧
          ∀ p, egress? c = some p → ∃ s ∈ contexts, egress? s = some p)) ∧
    ∀ (a b : Context) (id : String), capacityPoolId hash a = .ok id → capacityPoolId hash b = .ok id →
      Set.InjOn hash (keys [a, b]) → (∀ part ∈ (environment a).parts, '\x00' ∉ part.toList) →
      (∀ part ∈ (environment b).parts, '\x00' ∉ part.toList) → environment a = environment b := by
  constructor
  · intro contexts c phase advertised required hadvertised hrequired hhash
    exact eligible_iff hadvertised hrequired hhash
  · intro a b id ha hb hhash hnul hnul'
    replace ha := passed ha
    replace hb := passed hb
    exact environment_eq_of_poolText hhash (by simp) (by simp) hnul hnul'
      ((pure_eq_ok.mp ha).trans (pure_eq_ok.mp hb).symm)

/-! ## Two environments, two policies -/

/-- A context of one laboratory, up to its image and its egress policy. -/
def labContext (image policy : String) : Context where
  profileId := "v1"
  arch := "arm"
  provider := "pve"
  executionZone := "a"
  buildMode := "n"
  imageId := image
  imageGeneration := "g"
  egressPolicyId := policy
  egressPolicyOthers := []
  egressPolicyDigest := "d"
  others := []
  resolvedAt := some ""

def labHash (key : String) : List (Fin 16) :=
  if key = (environment (labContext "base" "a")).key then [1] else [2]

def labContexts : List Context :=
  [labContext "base" "a", labContext "desk" "b"]

def labAdvertised : List String :=
  (resolveExecutorCapabilities labHash labContexts).toOption.getD []

/-- What the phase asks for that needs the environment of the one and the policy of the other. -/
def labRequired : List String :=
  (phaseCapabilityRequirements labHash (some (labContext "base" "b")) "build").toOption.getD []

theorem eq_ok_toOption {ε α : Type} {x : Except ε α} {a : α} (h : x.toBool = true) :
    x = .ok (x.toOption.getD a) := by
  cases x with
  | error e => cases h
  | ok b => rfl

theorem labAdvertised_ok : resolveExecutorCapabilities labHash labContexts = .ok labAdvertised :=
  eq_ok_toOption (by decide +kernel)

theorem labRequired_ok : phaseCapabilityRequirements labHash
    (some (labContext "base" "b")) "build" = .ok labRequired :=
  eq_ok_toOption (by decide +kernel)

theorem labHash_injOn (h : ∀ c ∈ contexts, c ∈ labContext "base" "b" :: labContexts) :
    Set.InjOn labHash (keys contexts) := by
  have hall : ∀ a ∈ labContext "base" "b" :: labContexts,
      ∀ b ∈ labContext "base" "b" :: labContexts,
      labHash (environment a).key = labHash (environment b).key →
        (environment a).key = (environment b).key := by
    decide +kernel
  rintro _ ⟨a, ha, rfl⟩ _ ⟨b, hb, rfl⟩ hsame
  exact hall a (h a ha) b (h b hb) hsame

theorem hard_routing_lab :
    (eligible labAdvertised labRequired = true ↔
      (∃ s ∈ labContexts, environment s = environment (labContext "base" "b")) ∧
        ∀ p, egress? (labContext "base" "b") = some p →
          ∃ s ∈ labContexts, egress? s = some p) ∧
    environment (labContext "base" "a") = environment (labContext "base" "b") :=
  ⟨(hard_routing labHash).1 labContexts (labContext "base" "b") "build" labAdvertised
      labRequired labAdvertised_ok labRequired_ok (labHash_injOn fun _ h => h),
    (hard_routing labHash).2 (labContext "base" "a") (labContext "base" "b")
      "pve-a-arm-1" (by decide +kernel) (by decide +kernel)
      (labHash_injOn (by simp [labContexts])) (by decide +kernel) (by decide +kernel)⟩

/-- An executor of a base environment with one policy and a desktop environment with another takes a
phase of the base environment with the policy of the desktop. -/
theorem egress_crosses_environments :
    ∃ (hash : String → List (Fin 16)) (contexts : List Context) (c : Context) (phase : String)
      (advertised required : List String),
      Set.InjOn hash (keys (c :: contexts)) ∧
      resolveExecutorCapabilities hash contexts = .ok advertised ∧
      phaseCapabilityRequirements hash (some c) phase = .ok required ∧
      eligible advertised required = true ∧
      ∀ s ∈ contexts, ¬(environment s = environment c ∧ egress? s = egress? c) := by
  refine ⟨labHash, labContexts, labContext "base" "b", "build", labAdvertised, labRequired,
    labHash_injOn fun _ h => h, labAdvertised_ok, labRequired_ok, ?_, by decide +kernel⟩
  refine (eligible_iff labAdvertised_ok labRequired_ok (labHash_injOn fun _ h => h)).mpr ⟨?_, ?_⟩
  · exact ⟨labContext "base" "a", by simp [labContexts], rfl⟩
  · intro p hp
    exact ⟨labContext "desk" "b", by simp [labContexts], hp⟩

end PortageEngine.Routing
