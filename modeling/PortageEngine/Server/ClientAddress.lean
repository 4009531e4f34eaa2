import PortageEngine.Library.Decimal
import PortageEngine.Library.Netip

/-!
# The address a rate limit counts

Anonymous requests are counted by the address of the client (`internal/server/middleware.go`).  Behind
trusted proxies this is the rightmost hop of `X-Forwarded-For` that is not one of them; what stands to
the left of it is the client's own text.
-/

namespace PortageEngine.Server

open List Library.Decimal Library.Netip

def isBracket (c : Char) : Bool :=
  c = '[' || c = ']'

/-- `strings.Trim(s, "[]")` -/
def trimBrackets (s : List Char) : List Char :=
  (s.dropWhile isBracket).rdropWhile isBracket

def normalizeAddress (raw : List Char) : List Char :=
  let raw := trimChars raw
  let raw := trimBrackets (((splitHostPort raw).map Prod.fst).getD raw)
  match parseAddr raw with
  | some parsed => parsed.unmap.text
  | none => raw

/-- The hops of all header lines, as they stand there. -/
def hopTexts (headers : List (List Char)) : List (List Char) :=
  headers.flatMap (·.splitOn ',')

def forwardedHops (headers : List (List Char)) : List (List Char) :=
  ((hopTexts headers).map normalizeAddress).filter (· ≠ [])

section Proxies

variable (proxies : List Prefix)

def trustedProxy (address : List Char) : Bool :=
  (parseAddr address).any fun parsed => proxies.any (·.contains parsed.unmap)

/-- The loop of `clientAddress`, over the hops from the right. -/
def lastHop : List Char → List (List Char) → List Char
  | address, [] => address
  | _, hop :: hops => if trustedProxy proxies hop then lastHop hop hops else hop

def clientAddress (remoteAddr : List Char) (headers : List (List Char)) : List Char :=
  let address := normalizeAddress remoteAddr
  if proxies.isEmpty || !trustedProxy proxies address then address
  else lastHop proxies address (forwardedHops headers).reverse

end Proxies

/-! ## Spellings -/

/-- The ways to write an address: alone, in brackets, or as the host of a port. -/
inductive Spells (text : List Char) : List Char → Prop
  | alone : Spells text text
  | bracketed : Spells text ('[' :: (text ++ [']']))
  | port (raw port : List Char) (h : splitHostPort raw = some (text, port)) : Spells text raw

/-- Two texts are the same, or spell one address, with blanks around or not; a zone of the address has
no brackets in it. -/
inductive Respells : List Char → List Char → Prop
  | same (raw : List Char) : Respells raw raw
  | address {raw raw' text text' : List Char} {a a' : Addr} (h : Spells text (trimChars raw))
      (h' : Spells text' (trimChars raw')) (hplain : ∀ c ∈ text ++ text', isBracket c = false)
      (hparse : parseAddr text = some a) (hparse' : parseAddr text' = some a')
      (hsame : a.unmap = a'.unmap) : Respells raw raw'

variable {proxies : List Prefix} {text raw raw' hop address : List Char}

theorem trimBrackets_eq (h : ∀ c ∈ text, isBracket c = false) :
    trimBrackets text = text ∧ trimBrackets ('[' :: (text ++ [']'])) = text := by
  have hback : text.rdropWhile isBracket = text :=
    rdropWhile_eq_self_iff.mpr fun hne => by simp [h _ (getLast_mem hne)]
  cases text with
  | nil => exact ⟨rfl, rfl⟩
  | cons c text =>
    have hfront : ∀ rest, (c :: rest).dropWhile isBracket = c :: rest :=
      fun rest => dropWhile_cons_of_neg (by simp [h c (by simp)])
    refine ⟨(congrArg _ (hfront text)).trans hback, ?_⟩
    have hopen : ('[' :: (c :: text ++ [']'])).dropWhile isBracket = c :: text ++ [']'] := hfront _
    rw [trimBrackets, hopen, rdropWhile_concat_pos _ _ _ rfl]
    exact hback

/-- Every spelling of an address comes to the printed form of the address. -/
theorem normalizeAddress_spells {a : Addr} (h : Spells text (trimChars raw))
    (htext : ∀ c ∈ text, isBracket c = false) (hparse : parseAddr text = some a) :
    normalizeAddress raw = a.unmap.text := by
  rcases trimBrackets_eq htext with ⟨halone, hbracketed⟩
  have hopen : '[' ∉ text := fun hmem => Bool.noConfusion (htext _ hmem)
  have hclose : ']' ∉ text := fun hmem => Bool.noConfusion (htext _ hmem)
  have hhost : trimBrackets (((splitHostPort (trimChars raw)).map Prod.fst).getD (trimChars raw)) =
      text := by
    generalize trimChars raw = spelling at h
    cases h with
    | alone => rw [splitHostPort_addr hparse hopen]; exact halone
    | bracketed => rw [splitHostPort_brackets hclose]; exact hbracketed
    | port _ _ hsplit => rw [hsplit]; exact halone
  simp only [normalizeAddress, hhost, hparse]

theorem Respells.normalizeAddress_eq (h : Respells raw raw') :
    normalizeAddress raw = normalizeAddress raw' := by
  cases h with
  | same => rfl
  | address h h' hplain hparse hparse' hsame =>
    rw [normalizeAddress_spells h (fun c hc => hplain c (by simp [hc])) hparse,
      normalizeAddress_spells h' (fun c hc => hplain c (by simp [hc])) hparse', hsame]

theorem map_normalizeAddress_eq {hops hops' : List (List Char)} (h : Forall₂ Respells hops hops') :
    hops.map normalizeAddress = hops'.map normalizeAddress := by
  induction h with
  | nil => rfl
  | cons hhop _ ih => rw [map_cons, map_cons, hhop.normalizeAddress_eq, ih]

/-! ## The hop that decides -/

theorem lastHop_append {right left : List (List Char)}
    (hright : ∀ x ∈ right, trustedProxy proxies x = true) (hhop : trustedProxy proxies hop = false) :
    lastHop proxies address (right ++ hop :: left) = hop := by
  induction right generalizing address with
  | nil => simp [lastHop, hhop]
  | cons x right ih =>
    rw [cons_append, lastHop, if_pos (hright x (by simp))]
    exact ih fun y hy => hright y (by simp [hy])

/-- The hop is not a trusted proxy, and all that stand to the right of it are, or are empty. -/
def Decides (proxies : List Prefix) (headers : List (List Char)) (hop : List Char)
    (right : List (List Char)) : Prop :=
  (∃ left, hopTexts headers = left ++ hop :: right) ∧ normalizeAddress hop ≠ [] ∧
    trustedProxy proxies (normalizeAddress hop) = false ∧
    ∀ x ∈ right, normalizeAddress x = [] ∨ trustedProxy proxies (normalizeAddress x) = true

theorem Decides.lastHop_eq {headers right : List (List Char)} (h : Decides proxies headers hop right) :
    lastHop proxies address (forwardedHops headers).reverse = normalizeAddress hop := by
  rcases h with ⟨⟨left, hheaders⟩, hne, hhop, hright⟩
  rw [forwardedHops, hheaders, map_append, map_cons, filter_append,
    filter_cons_of_pos (by simpa using hne), reverse_append, reverse_cons, append_assoc]
  refine lastHop_append ?_ hhop
  intro x hx
  rw [mem_reverse, mem_filter, mem_map] at hx
  rcases hx with ⟨⟨y, hy, rfl⟩, hkept⟩
  exact (hright y hy).resolve_left (by simpa using hkept)

/-- Behind a trusted proxy, the address is the normal form of the rightmost hop that is not a trusted
proxy, whatever stands to the left of it; otherwise it is that of the peer, whatever the headers say;
and other spellings of the same addresses give the same address. -/
theorem client_address_not_chosen (proxies : List Prefix) (remoteAddr : List Char) :
    (trustedProxy proxies (normalizeAddress remoteAddr) = true → ∀ headers hop right,
      Decides proxies headers hop right →
        clientAddress proxies remoteAddr headers = normalizeAddress hop) ∧
    (trustedProxy proxies (normalizeAddress remoteAddr) = false → ∀ headers,
      clientAddress proxies remoteAddr headers = normalizeAddress remoteAddr) ∧
    ∀ remoteAddr' headers headers', Respells remoteAddr remoteAddr' →
      Forall₂ Respells (hopTexts headers) (hopTexts headers') →
        clientAddress proxies remoteAddr headers = clientAddress proxies remoteAddr' headers' := by
  refine ⟨?_, ?_, ?_⟩
  · intro hpeer headers hop right hdecides
    have hproxies : proxies ≠ [] := by
      rintro rfl
      simp [trustedProxy] at hpeer
    simp [clientAddress, hpeer, hproxies, hdecides.lastHop_eq]
  · intro hpeer headers
    simp [clientAddress, hpeer]
  · intro remoteAddr' headers headers' hremote hhops
    have hmap := map_normalizeAddress_eq hhops
    simp only [clientAddress, forwardedHops, hremote.normalizeAddress_eq, hmap]

/-- The proxies of 10.0.0.0/8. -/
def exampleProxies : List Prefix :=
  (parsePrefix "10.0.0.0/8".toList).toList

/-- A hop that the client made up has no influence, and neither has the spelling of the others. -/
theorem client_address_forged :
    clientAddress exampleProxies "10.0.0.1:4711".toList
        ["6.6.6.6, 203.0.113.7".toList, "10.0.0.2".toList] = "203.0.113.7".toList ∧
      clientAddress exampleProxies "10.0.0.1:4711".toList
        ["[::ffff:203.0.113.7]:80 ,".toList, "10.0.0.2".toList] = "203.0.113.7".toList := by
  have hdecides := (client_address_not_chosen exampleProxies "10.0.0.1:4711".toList).1 (by decide +kernel)
  refine ⟨(hdecides _ " 203.0.113.7".toList ["10.0.0.2".toList] ?_).trans ?_,
    (hdecides _ "[::ffff:203.0.113.7]:80 ".toList ["".toList, "10.0.0.2".toList] ?_).trans ?_⟩
  · exact ⟨⟨["6.6.6.6".toList], by decide +kernel⟩, by decide +kernel, by decide +kernel, by decide +kernel⟩
  · decide +kernel
  · exact ⟨⟨[], by decide +kernel⟩, by decide +kernel, by decide +kernel, by decide +kernel⟩
  · decide +kernel

end PortageEngine.Server
