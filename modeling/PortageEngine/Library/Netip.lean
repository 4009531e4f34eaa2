import Mathlib

/-!
# IP addresses in text

Addresses and prefixes as the Go packages `net` and `net/netip` read and print them.  An address is
four octets, or eight groups of sixteen bits with a zone that may be empty.  What is printed is read
back (`parseAddr_text`, `parsePrefix_text`), and an address alone is not taken for a host with a port
(`splitHostPort_addr`).
-/

namespace PortageEngine.Library.Netip

open List

/-- So many numbers below a bound. -/
abbrev Digits (n bound : Nat) := { ds : List Nat // ds.length = n ∧ ∀ d ∈ ds, d < bound }

def Digits.of (n bound : Nat) (ds : List Nat) : Option (Digits n bound) :=
  if h : ds.length = n ∧ ∀ d ∈ ds, d < bound then some ⟨ds, h⟩ else none

inductive Addr
  | v4 (octets : Digits 4 256)
  | v6 (groups : Digits 8 65536) (zone : List Char)
  deriving DecidableEq

def Addr.zone : Addr → List Char
  | .v4 _ => []
  | .v6 _ zone => zone

/-! ## Reading -/

/-- A decimal number without sign and leading zeros. -/
def readDecimal (cs : List Char) : Option Nat :=
  if Nat.toDigits 10 (Nat.ofDigitChars 10 cs 0) = cs then some (Nat.ofDigitChars 10 cs 0) else none

def parseIPv4 (cs : List Char) : Option (Digits 4 256) := do
  Digits.of 4 256 (← (cs.splitOn '.').mapM readDecimal)

def hexValue (c : Char) : Option Nat :=
  if c.isDigit then some (c.toNat - '0'.toNat)
  else if 'a' ≤ c && c ≤ 'f' then some (c.toNat - 'a'.toNat + 10)
  else if 'A' ≤ c && c ≤ 'F' then some (c.toNat - 'A'.toNat + 10)
  else none

/-- A group of one to four digits. -/
def readGroup (cs : List Char) : Option Nat := do
  let ds ← cs.mapM hexValue
  if 1 ≤ ds.length && ds.length ≤ 4 then some (ds.foldl (fun n d => n * 16 + d) 0) else none

/-- The groups up to the end, where a dotted address stands for two of them. -/
def readGroups : List (List Char) → Option (List Nat)
  | [] => some []
  | [last] =>
    if '.' ∈ last then
      match parseIPv4 last with
      | some ⟨[a, b, c, d], _⟩ => some [a * 256 + b, c * 256 + d]
      | _ => none
    else (readGroup last).map ([·])
  | field :: fields => do return (← readGroup field) :: (← readGroups fields)

/-- The ellipsis stands for at least one group of zeros. -/
def fillGroups (pre post : List Nat) : Option (List Nat) :=
  if (pre ++ post).length < 8 then some (pre ++ replicate (8 - (pre ++ post).length) 0 ++ post)
  else none

/-- The groups of the fields between colons.  An empty field is the ellipsis; at an end of the text
there is another one beside it. -/
def expandGroups (fields : List (List Char)) : Option (List Nat) :=
  let front := fields.takeWhile (· ≠ [])
  match front, fields.drop front.length with
  | _, [] => readGroups front
  | [], [[], [], []] => fillGroups [] []
  | [], [] :: [] :: field :: back => do fillGroups [] (← readGroups (field :: back))
  | _ :: _, [[], []] => do fillGroups (← front.mapM readGroup) []
  | _ :: _, [] :: field :: back => do
    fillGroups (← front.mapM readGroup) (← readGroups (field :: back))
  | _, _ => none

def parseIPv6 (cs : List Char) : Option Addr := do
  let zone := cs.dropWhile (· ≠ '%')
  if zone = ['%'] then none
  let groups ← expandGroups ((cs.takeWhile (· ≠ '%')).splitOn ':')
  return .v6 (← Digits.of 8 65536 groups) (zone.drop 1)

def parseAddr (cs : List Char) : Option Addr :=
  if ':' ∈ cs then parseIPv6 cs else (parseIPv4 cs).map .v4

def parseIP (cs : List Char) : Option Addr :=
  (parseAddr cs).filter (·.zone = [])

/-! ## Printing -/

def ipv4Text (octets : List Nat) : List Char :=
  ['.'].intercalate (octets.map (Nat.toDigits 10))

/-- The hexadecimal digits of a group, without leading zeros. -/
def hexDigits (x : Nat) : List Nat :=
  (if 0x1000 ≤ x then [x / 0x1000] else []) ++ (if 0x100 ≤ x then [x / 0x100 % 16] else []) ++
    (if 0x10 ≤ x then [x / 0x10 % 16] else []) ++ [x % 16]

def hexText (x : Nat) : List Char := (hexDigits x).map Nat.digitChar

/-- Start and length of the first longest run of two or more zero groups. -/
def zeroRun (gs : List Nat) : Nat × Nat :=
  (range gs.length).foldl
    (fun best i =>
      let n := ((gs.drop i).takeWhile (· = 0)).length
      if 2 ≤ n && best.2 < n then (i, n) else best)
    (0, 0)

/-- The groups on one side of the ellipsis; an empty field if there are none. -/
def sideFields (gs : List Nat) : List (List Char) :=
  if gs = [] then [[]] else gs.map hexText

def ipv6Fields : List Nat → List (List Char)
  | [0, 0, 0, 0, 0, 0xffff, hi, lo] =>
    [[], [], hexText 0xffff, ipv4Text [hi / 256, hi % 256, lo / 256, lo % 256]]
  | gs =>
    if (zeroRun gs).2 = 0 then gs.map hexText
    else sideFields (gs.take (zeroRun gs).1) ++ [] ::
      sideFields (gs.drop ((zeroRun gs).1 + (zeroRun gs).2))

/-- `Addr.String`. -/
def Addr.text : Addr → List Char
  | .v4 octets => ipv4Text octets.1
  | .v6 groups zone =>
    [':'].intercalate (ipv6Fields groups.1) ++ if zone = [] then [] else '%' :: zone

def Addr.unmap : Addr → Addr
  | .v6 ⟨[0, 0, 0, 0, 0, 0xffff, hi, lo], h⟩ _ =>
    .v4 ⟨[hi / 256, hi % 256, lo / 256, lo % 256], by
      have hhi := h.2 hi (by simp)
      have hlo := h.2 lo (by simp)
      simp
      omega⟩
  | a => a

def Addr.withoutZone : Addr → Addr
  | .v4 octets => .v4 octets
  | .v6 groups _ => .v6 groups []

/-- The width of the digits in bits, and the digits. -/
def Addr.digits : Addr → Nat × List Nat
  | .v4 octets => (8, octets.1)
  | .v6 groups _ => (16, groups.1)

def Addr.bitLen (a : Addr) : Nat := a.digits.1 * a.digits.2.length

/-! ## Prefixes -/

structure Prefix where
  addr : Addr
  bits : Nat
  zoneless : addr.zone = []
  bounded : bits ≤ addr.bitLen

/-- `netip.ParsePrefix`.  Only a zone can have a slash in it, and a zone is refused. -/
def parsePrefix (cs : List Char) : Option Prefix :=
  match cs.splitOn '/' with
  | [text, bits] => do
    let addr ← parseAddr text
    let bits ← readDecimal bits
    if h : addr.zone = [] ∧ bits ≤ addr.bitLen then some ⟨addr, bits, h.1, h.2⟩ else none
  | _ => none

/-- `Prefix.String`. -/
def Prefix.text (p : Prefix) : List Char :=
  p.addr.text ++ '/' :: Nat.toDigits 10 p.bits

/-- Digits of a width with all but the first bits cleared. -/
def keepBits (width : Nat) : Nat → List Nat → List Nat
  | _, [] => []
  | bits, d :: ds =>
    d / 2 ^ (width - bits) * 2 ^ (width - bits) :: keepBits width (bits - width) ds

/-- Whether the prefix is equal to its `Masked`. -/
def Prefix.isMasked (p : Prefix) : Bool :=
  keepBits p.addr.digits.1 p.bits p.addr.digits.2 = p.addr.digits.2

def Prefix.contains (p : Prefix) (a : Addr) : Bool :=
  a.zone = [] && a.digits.1 = p.addr.digits.1 &&
    keepBits a.digits.1 p.bits a.digits.2 = keepBits a.digits.1 p.bits p.addr.digits.2

/-- `netip.PrefixFrom(a, a.BitLen())`. -/
def Addr.hostPrefix (a : Addr) : Prefix where
  addr := a.withoutZone
  bits := a.bitLen
  zoneless := by cases a <;> rfl
  bounded := by cases a <;> exact Nat.le_refl _

/-! ## Hosts and ports -/

def splitHostPort : List Char → Option (List Char × List Char)
  | '[' :: rest =>
    match rest.dropWhile (· ≠ ']') with
    | ']' :: ':' :: port =>
      if '[' ∈ rest || ']' ∈ port || ':' ∈ port then none
      else some (rest.takeWhile (· ≠ ']'), port)
    | _ => none
  | cs =>
    match cs.splitOn ':' with
    | [host, port] => if '[' ∈ cs || ']' ∈ cs then none else some (host, port)
    | _ => none

/-! ## Fields -/

variable {x : Nat} {cs : List Char} {gs pre post : List Nat} {c : Char}

theorem mapM_map_eq {α β : Type} {f : α → β} {g : β → Option α} {l : List α}
    (h : ∀ a ∈ l, g (f a) = some a) : (l.map f).mapM g = some l := by
  induction l with
  | nil => rfl
  | cons a l ih => simp [h a mem_cons_self, ih fun b hb => h b (mem_cons_of_mem _ hb)]

theorem readDecimal_toDigits : readDecimal (Nat.toDigits 10 x) = some x := by
  simp [readDecimal, Nat.ofDigitChars_ten_toDigits]

theorem isDigit_of_mem_toDigits (hc : c ∈ Nat.toDigits 10 x) : c.isDigit = true :=
  Nat.isDigit_of_mem_toDigits (by decide) (by decide) hc

theorem parseIPv4_text (octets : Digits 4 256) : parseIPv4 (ipv4Text octets.1) = some octets := by
  rcases octets with ⟨ds, h⟩
  have hsplit : (ipv4Text ds).splitOn '.' = ds.map (Nat.toDigits 10) := by
    refine splitOn_intercalate _ ?_ ?_
    · intro digits hdigits hdot
      rcases mem_map.mp hdigits with ⟨d, -, rfl⟩
      cases isDigit_of_mem_toDigits hdot
    · intro hnil
      simp [map_eq_nil_iff.mp hnil] at h
  rw [parseIPv4, hsplit, mapM_map_eq fun d _ => readDecimal_toDigits]
  exact dif_pos h

theorem hexValue_digitChar (hx : x < 16) : hexValue (Nat.digitChar x) = some x := by
  interval_cases x <;> rfl

theorem lt_of_mem_hexDigits {d : Nat} (hx : x < 65536) (hd : d ∈ hexDigits x) : d < 16 := by
  unfold hexDigits at hd
  split_ifs at hd <;> simp at hd <;> omega

/-- A group is printed as one to four digits of its value. -/
theorem readGroup_text (hx : x < 65536) : readGroup (hexText x) = some x := by
  rw [readGroup, hexText, mapM_map_eq fun d hd => hexValue_digitChar (lt_of_mem_hexDigits hx hd)]
  unfold hexDigits
  split_ifs <;> simp <;> omega

/-- The characters of a field. -/
def isFieldChar (c : Char) : Bool := (hexValue c).isSome || c = '.'

theorem isFieldChar_hexText (hx : x < 65536) : ∀ c ∈ hexText x, isFieldChar c = true ∧ c ≠ '.' := by
  intro c hc
  rcases mem_map.mp hc with ⟨d, hd, rfl⟩
  have hvalue := hexValue_digitChar (lt_of_mem_hexDigits hx hd)
  refine ⟨by simp [isFieldChar, hvalue], ?_⟩
  intro hdot
  rw [hdot] at hvalue
  cases hvalue

theorem hexText_ne_nil : hexText x ≠ [] := by simp [hexText, hexDigits]

theorem readGroups_text (hgs : ∀ g ∈ gs, g < 65536) : readGroups (gs.map hexText) = some gs := by
  induction gs with
  | nil => rfl
  | cons g gs ih =>
    have hg := readGroup_text (hgs g mem_cons_self)
    cases gs with
    | nil =>
      have hdot : '.' ∉ hexText g := fun hdot =>
        (isFieldChar_hexText (hgs g mem_cons_self) _ hdot).2 rfl
      simp [readGroups, hdot, hg]
    | cons g' gs =>
      have hrest := ih fun x hx => hgs x (mem_cons_of_mem _ hx)
      rw [map_cons] at hrest
      simp [readGroups, hg, hrest]

theorem fillGroups_eq {n : Nat} (hlength : (pre ++ replicate n 0 ++ post).length = 8) (hn : n ≠ 0) :
    fillGroups pre post = some (pre ++ replicate n 0 ++ post) := by
  simp only [length_append, length_replicate] at hlength
  have hshort : (pre ++ post).length < 8 := by
    rw [length_append]
    omega
  have hzeros : 8 - (pre ++ post).length = n := by
    rw [length_append]
    omega
  rw [fillGroups, if_pos hshort, hzeros]

/-- A run that was found consists of zeros. -/
theorem zeroRun_spec (gs : List Nat) :
    (zeroRun gs).2 = 0 ∨ gs = gs.take (zeroRun gs).1 ++ replicate (zeroRun gs).2 0 ++
      gs.drop ((zeroRun gs).1 + (zeroRun gs).2) := by
  unfold zeroRun
  refine foldlRecOn (range gs.length) _ (motive := fun best : Nat × Nat => best.2 = 0 ∨
    gs = gs.take best.1 ++ replicate best.2 0 ++ gs.drop (best.1 + best.2)) (.inl rfl) ?_
  intro best hbest i _
  dsimp only
  split
  · have hzeros : (gs.drop i).take ((gs.drop i).takeWhile (· = 0)).length =
        replicate ((gs.drop i).takeWhile (· = 0)).length 0 := by
      rw [← prefix_iff_eq_take.mp ( takeWhile_prefix _)]
      exact eq_replicate_of_mem fun g hg => by simpa using mem_takeWhile_imp hg
    refine .inr ?_
    dsimp only
    rw [← hzeros, ← drop_drop, append_assoc, take_append_drop, take_append_drop]
  · exact hbest

theorem takeWhile_fields (gs : List Nat) {back : List (List Char)} (hback : ∀ f ∈ back.head?, f = []) :
    (gs.map hexText ++ back).takeWhile (· ≠ []) = gs.map hexText := by
  rw [takeWhile_append_of_pos]
  · cases back with
    | nil => simp
    | cons f back => simp [hback f rfl]
  · intro f hf
    rcases mem_map.mp hf with ⟨g, -, rfl⟩
    simp [hexText_ne_nil]

theorem expandGroups_sides (hpre : ∀ g ∈ pre, g < 65536) (hpost : ∀ g ∈ post, g < 65536) :
    expandGroups (sideFields pre ++ [] :: sideFields post) = fillGroups pre post := by
  have hback := readGroups_text hpost
  have hfront : (pre.map hexText).mapM readGroup = some pre :=
    mapM_map_eq fun g hg => readGroup_text (hpre g hg)
  have htake : (pre.map hexText ++ [] :: sideFields post).takeWhile (· ≠ []) = pre.map hexText :=
    takeWhile_fields pre (by simp)
  -- what is not empty is written as such, for the patterns
  have hcons : ∀ g, ∃ c text, hexText g = c :: text := fun g =>
    exists_cons_of_ne_nil hexText_ne_nil
  cases pre with
  | nil =>
    cases post with
    | nil => rfl
    | cons g post =>
      rcases hcons g with ⟨c, text, htext⟩
      simp only [map_cons, htext] at hback
      simp [sideFields, expandGroups, htext, hback]
  | cons g' pre =>
    rcases hcons g' with ⟨c', text', htext'⟩
    simp only [sideFields, reduceCtorEq, if_false, map_cons, htext'] at htake hfront ⊢
    simp only [expandGroups, htake, drop_left]
    cases post with
    | nil => simp [hfront]
    | cons g post =>
      rcases hcons g with ⟨c, text, htext⟩
      simp only [map_cons, htext] at hback
      simp [htext, hback, hfront]

theorem expandGroups_plain (hgs : ∀ g ∈ gs, g < 65536) (hne : gs ≠ []) :
    expandGroups (gs.map hexText) = some gs := by
  have htake : (gs.map hexText ++ []).takeWhile (· ≠ []) = gs.map hexText :=
    takeWhile_fields gs (by simp)
  rw [append_nil] at htake
  cases gs with
  | nil => cases hne rfl
  | cons g gs =>
    simp only [expandGroups, htake, drop_length]
    exact readGroups_text hgs

/-- The fields of a printed address are read back. -/
theorem expandGroups_fields (groups : Digits 8 65536) :
    expandGroups (ipv6Fields groups.1) = some groups.1 := by
  rcases groups with ⟨gs, hlength, hgs⟩
  dsimp only
  unfold ipv6Fields
  split
  · rename_i hi lo
    have hhi := hgs hi (by simp)
    have hlo := hgs lo (by simp)
    have hdotted := parseIPv4_text ⟨[hi / 256, hi % 256, lo / 256, lo % 256], rfl, by simp; omega⟩
    have hdot : '.' ∈ ipv4Text [hi / 256, hi % 256, lo / 256, lo % 256] := by
      simp [ipv4Text, intercalate]
    simp [expandGroups, readGroups, readGroup_text, hdot, hdotted, fillGroups, replicate]
    omega
  split
  · refine expandGroups_plain hgs ?_
    rintro rfl
    cases hlength
  · rename_i hn
    have hspec := (zeroRun_spec gs).resolve_left hn
    rw [expandGroups_sides (fun g hg => hgs g (mem_of_mem_take hg))
      fun g hg => hgs g (mem_of_mem_drop hg)]
    rw [hspec] at hlength
    rw [fillGroups_eq hlength hn, ← hspec]

theorem forall_intercalate {p : Char → Prop} {sep : Char} {texts : List (List Char)} (hsep : p sep)
    (h : ∀ text ∈ texts, ∀ c ∈ text, p c) : ∀ c ∈ [sep].intercalate texts, p c := by
  intro c hc
  rw [intercalate, mem_flatten] at hc
  rcases hc with ⟨text, htext, hc⟩
  induction texts with
  | nil => cases htext
  | cons first texts ih =>
    cases texts with
    | nil => exact h text (by simpa using htext) c hc
    | cons second texts =>
      simp only [intersperse_cons_cons, mem_cons] at htext
      rcases htext with rfl | rfl | htext
      · exact h text mem_cons_self c hc
      · exact mem_singleton.mp hc ▸ hsep
      · exact ih (fun text htext => h text (mem_cons_of_mem _ htext)) htext

theorem isFieldChar_ipv4Text {octets : List Nat} :
    ∀ c ∈ ipv4Text octets, isFieldChar c = true := by
  refine forall_intercalate rfl ?_
  intro text htext c hc
  rcases mem_map.mp htext with ⟨d, -, rfl⟩
  simp [isFieldChar, hexValue, isDigit_of_mem_toDigits hc]

theorem isFieldChar_fields (hgs : ∀ g ∈ gs, g < 65536) :
    ∀ field ∈ ipv6Fields gs, ∀ c ∈ field, isFieldChar c = true := by
  have hmap : ∀ {gs : List Nat}, (∀ g ∈ gs, g < 65536) →
      ∀ field ∈ gs.map hexText, ∀ c ∈ field, isFieldChar c = true := by
    intro gs hgs field hfield c hc
    rcases mem_map.mp hfield with ⟨g, hg, rfl⟩
    exact (isFieldChar_hexText (hgs g hg) c hc).1
  have hside : ∀ {gs : List Nat}, (∀ g ∈ gs, g < 65536) →
      ∀ field ∈ sideFields gs, ∀ c ∈ field, isFieldChar c = true := by
    intro gs hgs
    unfold sideFields
    split
    · simp
    · exact hmap hgs
  unfold ipv6Fields
  split
  · simp only [forall_mem_cons, not_mem_nil, false_imp_iff, implies_true, true_and, and_true]
    exact ⟨fun c hc => (isFieldChar_hexText (by decide) c hc).1, isFieldChar_ipv4Text⟩
  split
  · exact hmap hgs
  · rw [forall_mem_append, forall_mem_cons]
    exact ⟨hside fun g hg => hgs g (mem_of_mem_take hg), nofun,
      hside fun g hg => hgs g (mem_of_mem_drop hg)⟩

theorem length_fields (hlength : gs.length = 8) : 2 ≤ (ipv6Fields gs).length := by
  have hside : ∀ gs, 1 ≤ (sideFields gs).length := by
    intro gs
    unfold sideFields
    split
    · exact Nat.le_refl _
    · rename_i hne
      simpa [Nat.one_le_iff_ne_zero] using hne
  unfold ipv6Fields
  split
  · simp
  split
  · simp [hlength]
  · have hpre := hside (gs.take (zeroRun gs).1)
    simp only [length_append, length_cons]
    omega

/-- Printed addresses are read back. -/
theorem parseAddr_text (a : Addr) : parseAddr a.text = some a := by
  cases a with
  | v4 octets =>
    have hcolon : ':' ∉ ipv4Text octets.1 := fun hcolon => by cases isFieldChar_ipv4Text _ hcolon
    simp [parseAddr, Addr.text, hcolon, parseIPv4_text]
  | v6 groups zone =>
    have hchars := isFieldChar_fields groups.2.2
    have hsplit : ([':'].intercalate (ipv6Fields groups.1)).splitOn ':' = ipv6Fields groups.1 := by
      refine splitOn_intercalate _ (fun field hfield hcolon => ?_) fun hnil => ?_
      · cases hchars field hfield _ hcolon
      · have hlength := length_fields groups.2.1
        simp [hnil] at hlength
    have hcolon : ':' ∈ [':'].intercalate (ipv6Fields groups.1) := by
      by_contra hnone
      have hlength := length_fields groups.2.1
      rw [← hsplit, splitOn_eq_singleton hnone] at hlength
      simp at hlength
    have hzone : ∀ c ∈ [':'].intercalate (ipv6Fields groups.1), decide (c ≠ '%') = true := by
      refine forall_intercalate rfl fun field hfield c hc => decide_eq_true ?_
      rintro rfl
      cases hchars field hfield _ hc
    rw [parseAddr, Addr.text, if_pos (mem_append_left _ hcolon)]
    simp only [parseIPv6, takeWhile_append_of_pos hzone, dropWhile_append_of_pos hzone]
    have hof : Digits.of 8 65536 groups.1 = some groups := dif_pos groups.2
    by_cases hzone : zone = []
    · simp [hzone, hsplit, expandGroups_fields, hof]
    · simp [hzone, hsplit, expandGroups_fields, hof]

/-! ## Prefixes -/

theorem parsePrefix_text (p : Prefix) : parsePrefix p.text = some p := by
  have haddr : '/' ∉ p.addr.text := by
    intro hslash
    have hzone := p.zoneless
    cases hp : p.addr with
    | v4 octets =>
      rw [hp] at hslash
      cases isFieldChar_ipv4Text _ hslash
    | v6 groups zone =>
      rw [hp] at hslash hzone
      have hnil : zone = [] := hzone
      rw [Addr.text, hnil, if_pos rfl, append_nil] at hslash
      have hchars : ∀ c ∈ [':'].intercalate (ipv6Fields groups.1), c ≠ '/' := by
        refine forall_intercalate (by decide) fun field hfield c hc => ?_
        rintro rfl
        cases isFieldChar_fields groups.2.2 field hfield _ hc
      exact hchars _ hslash rfl
  have hbits : '/' ∉ Nat.toDigits 10 p.bits := fun hslash => by
    cases isDigit_of_mem_toDigits hslash
  have hsplit : p.text.splitOn '/' = [p.addr.text, Nat.toDigits 10 p.bits] := by
    have htext : p.text = ['/'].intercalate [p.addr.text, Nat.toDigits 10 p.bits] := by
      simp [Prefix.text, intercalate]
    rw [htext]
    exact splitOn_intercalate _ (by simp [haddr, hbits]) (cons_ne_nil _ _)
  simp only [parsePrefix, hsplit, parseAddr_text, readDecimal_toDigits, Option.bind_eq_bind,
    Option.bind_some]
  exact dif_pos ⟨p.zoneless, p.bounded⟩

theorem keepBits_all {width bits : Nat} {ds : List Nat} (h : bits = width * ds.length) :
    keepBits width bits ds = ds := by
  induction ds generalizing bits with
  | nil => rfl
  | cons d ds ih =>
    rw [length_cons, Nat.mul_add_one] at h
    have hwide : width - bits = 0 := by omega
    have hrest : bits - width = width * ds.length := by omega
    simp [keepBits, hwide, ih hrest]

/-- The prefix of a host contains this host only. -/
theorem contains_hostPrefix {a h : Addr} : a.hostPrefix.contains h = true ↔ a.withoutZone = h := by
  cases a with
  | v4 octets =>
    cases h with
    | v4 octets' =>
      have hbits : 8 * octets.1.length = 8 * octets'.1.length := by rw [octets.2.1, octets'.2.1]
      simp [Prefix.contains, Addr.hostPrefix, Addr.digits, Addr.bitLen, Addr.withoutZone,
        Addr.zone, keepBits_all, hbits, Subtype.ext_iff]
      exact eq_comm
    | v6 => simp [Prefix.contains, Addr.hostPrefix, Addr.digits, Addr.withoutZone]
  | v6 groups zone =>
    cases h with
    | v4 => simp [Prefix.contains, Addr.hostPrefix, Addr.digits, Addr.withoutZone]
    | v6 groups' zone' =>
      have hbits : 16 * groups.1.length = 16 * groups'.1.length := by rw [groups.2.1, groups'.2.1]
      simp [Prefix.contains, Addr.hostPrefix, Addr.digits, Addr.bitLen, Addr.withoutZone,
        Addr.zone, keepBits_all, hbits, Subtype.ext_iff]
      grind

/-! ## Hosts and ports -/

theorem length_splitOn {sep : Char} : (cs.splitOn sep).length = cs.count sep + 1 := by
  induction cs with
  | nil => rfl
  | cons c cs ih =>
    rw [splitOn_cons_eq_if_modifyHead, count_cons]
    split <;> simp [ih]

theorem length_readGroups {fields : List (List Char)} (h : readGroups fields = some gs) :
    gs.length ≤ fields.length + 1 := by
  induction fields generalizing gs with
  | nil =>
    cases h
    simp
  | cons field fields ih =>
    cases fields with
    | nil =>
      unfold readGroups at h
      split at h
      · split at h <;> cases h
        simp
      · rcases Option.map_eq_some_iff.mp h with ⟨g, -, rfl⟩
        simp
    | cons field' fields =>
      rcases Option.bind_eq_some_iff.mp h with ⟨g, -, h⟩
      rcases Option.bind_eq_some_iff.mp h with ⟨rest, hrest, h⟩
      cases h
      simpa using ih hrest

theorem length_of_expandGroups {fields : List (List Char)} (h : expandGroups fields = some gs)
    (hlength : gs.length = 8) : 3 ≤ fields.length := by
  unfold expandGroups at h
  dsimp only at h
  split at h
  case h_1 =>
    have hle := length_readGroups h
    have hfront := (takeWhile_sublist (l := fields) (· ≠ [])).length_le
    omega
  case h_6 => cases h
  -- the empty fields are there
  all_goals
    rename_i hfront hback
    replace hfront := congrArg List.length hfront
    replace hback := congrArg List.length hback
    simp only [length_drop, length_cons, length_nil] at hfront hback
    omega

/-- An address has no colon, or more than one. -/
theorem count_colon_of_parseAddr {a : Addr} (h : parseAddr cs = some a) : cs.count ':' ≠ 1 := by
  unfold parseAddr at h
  split at h
  · unfold parseIPv6 at h
    dsimp only at h
    split at h
    · cases h
    rcases Option.bind_eq_some_iff.mp h with ⟨gs, hgs, h⟩
    rcases Option.bind_eq_some_iff.mp h with ⟨groups, hgroups, -⟩
    have hlength : gs.length = 8 := by
      unfold Digits.of at hgroups
      grind
    have hfields := length_of_expandGroups hgs hlength
    rw [length_splitOn] at hfields
    have hle := (takeWhile_sublist (l := cs) (· ≠ '%')).count_le ':'
    omega
  · rename_i hnone
    rw [count_eq_zero.mpr hnone]
    decide

theorem splitHostPort_addr {a : Addr} (h : parseAddr cs = some a) (hopen : '[' ∉ cs) :
    splitHostPort cs = none := by
  unfold splitHostPort
  split
  · exact absurd mem_cons_self hopen
  · split
    · rename_i hsplit
      have hlength := congrArg List.length hsplit
      rw [length_splitOn] at hlength
      exact absurd (Nat.succ.inj hlength) (count_colon_of_parseAddr h)
    · rfl

theorem splitHostPort_brackets (h : ']' ∉ cs) : splitHostPort ('[' :: (cs ++ [']'])) = none := by
  have hfront : ∀ c ∈ cs, decide (c ≠ ']') = true :=
    fun c hc => decide_eq_true fun heq => h (heq ▸ hc)
  rw [splitHostPort, dropWhile_append_of_pos hfront]
  rfl

end PortageEngine.Library.Netip
