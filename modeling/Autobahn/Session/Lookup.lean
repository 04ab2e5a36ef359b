import Autobahn.Foundation.CString
import Autobahn.Session.State

/-!
# Lookups by key

`kw_argument` and `kw_argument_or` of an event, of a call result and of an
invocation, and the two lookups in the details of an invocation: one loop
over the entries of a map, with two ways to compare a key and three things to
do when no key matches.

A lookup that finds the key converts the value of the first entry that has
it (`searchMap_decided`). The overloads agree as long as there is such an
entry: without one, `kw_argument_or` returns the fallback when the key is a
`std::string` and throws it when the key is a `const char*`.
-/

namespace Autobahn

open Foundation MsgPack

/-! ## The loop -/

/-- What a lookup of a `T` throws: an exception, `std::out_of_range` with its
text, or an object of type `T`. -/
inductive Thrown (α : Type) : Type where
  | exn (e : Exn)
  | outOfRange (what : Octets)
  | value (thrown : α)

/-- How a lookup of a `T` ends. -/
abbrev Fetch (α : Type) : Type := Except (Thrown α) α

section Loop

variable {α : Type} (found : Octets → Bool) (as : Object → Except Exn α)
  (miss : Fetch α)

/-- The value of the first entry whose key is a string that `found` accepts,
converted by `as<T>()`; `miss` behind the loop. -/
def searchMap : List (Object × Object) → Fetch α
  | [] => miss
  | (key, val) :: rest =>
      match key with
      | .str s =>
          if found s then (as val).mapError .exn else searchMap rest
      | _ => searchMap rest

def lookup : Object → Fetch α
  | .map entries => searchMap found as miss entries
  | _ => .error (.exn .typeError)

end Loop

/-- The comparison of the overloads that take a `std::string`. -/
def sameString (key s : Octets) : Bool :=
  key.length = s.length && stringCompare key 0 key.length s = 0

/-- The comparison of the overloads that take a `const char*`. -/
def sameChars (key : CString) (s : Octets) : Bool :=
  key.strlen = s.length && memcmp key.memory s key.strlen = 0

def noKeyword (key : Octets) : Octets :=
  key ++ octets " keyword argument doesn't exist"

def noDetail (key : Octets) : Octets := key ++ octets " detail doesn't exist"

/-! ## The fourteen lookups

The name of an overload that takes a `const char*` ends in `Chars`. -/

section Overloads

variable {α : Type} (as : Object → Except Exn α)

namespace WampEvent

def kwArgument (event : WampEvent) (key : Octets) : Fetch α :=
  lookup (sameString key) as (.error (.outOfRange (noKeyword key)))
    event.kwArguments

def kwArgumentChars (event : WampEvent) (key : CString) : Fetch α :=
  lookup (sameChars key) as (.error (.outOfRange (noKeyword key.text)))
    event.kwArguments

def kwArgumentOr (event : WampEvent) (key : Octets) (fallback : α) : Fetch α :=
  lookup (sameString key) as (.ok fallback) event.kwArguments

/-- `throw fallback;` stands behind the loop. -/
def kwArgumentOrChars (event : WampEvent) (key : CString) (fallback : α) :
    Fetch α :=
  lookup (sameChars key) as (.error (.value fallback)) event.kwArguments

end WampEvent

namespace WampCallResult

def kwArgument (result : WampCallResult) (key : Octets) : Fetch α :=
  lookup (sameString key) as (.error (.outOfRange (noKeyword key)))
    result.kwArguments

def kwArgumentChars (result : WampCallResult) (key : CString) : Fetch α :=
  lookup (sameChars key) as (.error (.outOfRange (noKeyword key.text)))
    result.kwArguments

def kwArgumentOr (result : WampCallResult) (key : Octets) (fallback : α) :
    Fetch α :=
  lookup (sameString key) as (.ok fallback) result.kwArguments

/-- `throw fallback;` stands behind the loop. -/
def kwArgumentOrChars (result : WampCallResult) (key : CString) (fallback : α) :
    Fetch α :=
  lookup (sameChars key) as (.error (.value fallback)) result.kwArguments

end WampCallResult

namespace WampInvocation

/-- `details<T>(const std::string&)` -/
def detailsAt (invocation : WampInvocation) (key : Octets) : Fetch α :=
  lookup (sameString key) as (.error (.outOfRange (noDetail key)))
    invocation.details

/-- `detail<T>(const char*)` -/
def detail (invocation : WampInvocation) (key : CString) : Fetch α :=
  lookup (sameChars key) as (.error (.outOfRange (noDetail key.text)))
    invocation.details

def kwArgument (invocation : WampInvocation) (key : Octets) : Fetch α :=
  lookup (sameString key) as (.error (.outOfRange (noKeyword key)))
    invocation.kwArguments

def kwArgumentChars (invocation : WampInvocation) (key : CString) : Fetch α :=
  lookup (sameChars key) as (.error (.outOfRange (noKeyword key.text)))
    invocation.kwArguments

def kwArgumentOr (invocation : WampInvocation) (key : Octets) (fallback : α) :
    Fetch α :=
  lookup (sameString key) as (.ok fallback) invocation.kwArguments

/-- `throw fallback;` stands behind the loop. -/
def kwArgumentOrChars (invocation : WampInvocation) (key : CString)
    (fallback : α) : Fetch α :=
  lookup (sameChars key) as (.error (.value fallback)) invocation.kwArguments

end WampInvocation

end Overloads

/-! ## What a lookup is for -/

def HasKey (k : Octets) (entries : List (Object × Object)) : Prop :=
  ∃ e ∈ entries, e.1 = .str k

/-- The first entry whose key is the string `k` has the value `v`. -/
def FirstEntry (k : Octets) (v : Object) (entries : List (Object × Object)) :
    Prop :=
  ∃ front back, entries = front ++ (.str k, v) :: back ∧ ¬ HasKey k front

/-- The outcome that the entries and the key call for: the first entry's value
converted, and `miss` when there is no such entry. -/
structure Decided {α : Type} (as : Object → Except Exn α) (k : Octets)
    (entries : List (Object × Object)) (miss outcome : Fetch α) : Prop where
  found : ∀ v, FirstEntry k v entries → outcome = (as v).mapError .exn
  absent : ¬ HasKey k entries → outcome = miss

theorem not_hasKey_nil (k : Octets) : ¬ HasKey k [] := by
  rintro ⟨e, he, -⟩
  cases he

theorem hasKey_cons {k : Octets} {e : Object × Object}
    {entries : List (Object × Object)} :
    HasKey k (e :: entries) ↔ e.1 = .str k ∨ HasKey k entries := by
  simp [HasKey]

theorem hasKey_of_firstEntry {k : Octets} {v : Object}
    {entries : List (Object × Object)} (h : FirstEntry k v entries) :
    HasKey k entries := by
  obtain ⟨front, back, rfl, -⟩ := h
  exact ⟨(.str k, v), by simp, rfl⟩

theorem firstEntry_cons_of_ne {k : Octets} {v : Object} {e : Object × Object}
    {entries : List (Object × Object)} (he : e.1 ≠ .str k) :
    FirstEntry k v (e :: entries) ↔ FirstEntry k v entries := by
  constructor
  · rintro ⟨front, back, heq, hfront⟩
    cases front with
    | nil =>
        obtain ⟨rfl, -⟩ := List.cons.inj heq
        exact absurd rfl he
    | cons e' front =>
        obtain ⟨-, rfl⟩ := List.cons.inj heq
        exact ⟨front, back, rfl, fun h => hfront (hasKey_cons.mpr (.inr h))⟩
  · rintro ⟨front, back, rfl, hfront⟩
    refine ⟨e :: front, back, rfl, fun h => ?_⟩
    rcases hasKey_cons.mp h with h | h
    · exact he h
    · exact hfront h

theorem firstEntry_cons_self {k : Octets} {v w : Object}
    {entries : List (Object × Object)}
    (h : FirstEntry k v ((.str k, w) :: entries)) : v = w := by
  obtain ⟨front, back, heq, hfront⟩ := h
  cases front with
  | nil => exact (Prod.mk.inj (List.cons.inj heq).1).2.symm
  | cons e front =>
      obtain ⟨rfl, -⟩ := List.cons.inj heq
      exact absurd (hasKey_cons.mpr (.inl rfl)) hfront

/-- A key that is there is there a first time. -/
theorem exists_firstEntry {k : Octets} : ∀ {entries : List (Object × Object)},
    HasKey k entries → ∃ v, FirstEntry k v entries
  | [], h => absurd h (not_hasKey_nil k)
  | e :: entries, h => by
      by_cases he : e.1 = .str k
      · exact ⟨e.2, [], entries, by rw [← he]; rfl, not_hasKey_nil k⟩
      · obtain ⟨v, hv⟩ := exists_firstEntry
          ((hasKey_cons.mp h).resolve_left he)
        exact ⟨v, (firstEntry_cons_of_ne he).mpr hv⟩

section Search

variable {α : Type} {found : Octets → Bool} {as : Object → Except Exn α}
  {miss : Fetch α} {k : Octets}

theorem searchMap_cons_of_ne (hfound : ∀ s, found s = true ↔ k = s)
    {e : Object × Object} {entries : List (Object × Object)}
    (he : e.1 ≠ .str k) :
    searchMap found as miss (e :: entries) = searchMap found as miss entries := by
  obtain ⟨key, val⟩ := e
  cases key with
  | str s =>
      have hs : found s = false := by
        rw [Bool.eq_false_iff, ne_eq, hfound]
        exact fun h => he (h ▸ rfl)
      simp [searchMap, hs]
  | _ => rfl

/-- **The loop finds what it is for**, with any test that accepts exactly the
octets of the key. -/
theorem searchMap_decided (hfound : ∀ s, found s = true ↔ k = s) :
    ∀ entries : List (Object × Object),
      Decided as k entries miss (searchMap found as miss entries)
  | [] =>
      ⟨fun v hv => absurd (hasKey_of_firstEntry hv) (not_hasKey_nil k),
        fun _ => rfl⟩
  | e :: entries => by
      have ih := searchMap_decided hfound entries
      by_cases he : e.1 = .str k
      · obtain ⟨key, val⟩ := e
        obtain rfl : key = .str k := he
        have hk : found k = true := (hfound k).mpr rfl
        refine ⟨fun v hv => ?_, fun h => absurd (hasKey_cons.mpr (.inl rfl)) h⟩
        obtain rfl := firstEntry_cons_self hv
        simp [searchMap, hk]
      · rw [← searchMap_cons_of_ne hfound he] at ih
        exact ⟨fun v hv => ih.found v ((firstEntry_cons_of_ne he).mp hv),
          fun h => ih.absent fun hrest => h (hasKey_cons.mpr (.inr hrest))⟩

end Search

theorem sameString_iff (key s : Octets) : sameString key s = true ↔ key = s := by
  simp only [sameString, Bool.and_eq_true, decide_eq_true_eq,
    stringCompare_eq_zero]
  exact ⟨fun h => h.2, fun h => ⟨congrArg List.length h, h⟩⟩

theorem sameChars_iff (key : CString) (s : Octets) :
    sameChars key s = true ↔ key.text = s := by
  simp only [sameChars, Bool.and_eq_true, decide_eq_true_eq]
  constructor
  · rintro ⟨hlen, hcmp⟩
    exact (CString.memcmp_strlen_eq_zero hlen).mp hcmp
  · intro h
    have hlen : key.strlen = s.length := congrArg List.length h
    exact ⟨hlen, (CString.memcmp_strlen_eq_zero hlen).mpr h⟩

/-! ## The overloads of a class -/

/-- The four keyword lookups of one object. -/
structure KwLookups (α : Type) where
  kwArgument : Octets → Fetch α
  kwArgumentChars : CString → Fetch α
  kwArgumentOr : Octets → α → Fetch α
  kwArgumentOrChars : CString → α → Fetch α

section

variable {α : Type} (as : Object → Except Exn α)

def WampEvent.kwLookups (event : WampEvent) : KwLookups α where
  kwArgument := event.kwArgument as
  kwArgumentChars := event.kwArgumentChars as
  kwArgumentOr := event.kwArgumentOr as
  kwArgumentOrChars := event.kwArgumentOrChars as

def WampCallResult.kwLookups (result : WampCallResult) : KwLookups α where
  kwArgument := result.kwArgument as
  kwArgumentChars := result.kwArgumentChars as
  kwArgumentOr := result.kwArgumentOr as
  kwArgumentOrChars := result.kwArgumentOrChars as

def WampInvocation.kwLookups (invocation : WampInvocation) : KwLookups α where
  kwArgument := invocation.kwArgument as
  kwArgumentChars := invocation.kwArgumentChars as
  kwArgumentOr := invocation.kwArgumentOr as
  kwArgumentOrChars := invocation.kwArgumentOrChars as

/-- The lookups of an object whose keyword arguments are `entries` do for the
key `k` and the fallback what they are for, whichever way `k` is passed. -/
structure KwLookups.Agree (lookups : KwLookups α)
    (entries : List (Object × Object)) (k : Octets) (fallback : α) : Prop where
  same : lookups.kwArgumentChars (.ofOctets k) = lookups.kwArgument k
  sameOr : lookups.kwArgumentOrChars (.ofOctets k) fallback =
    lookups.kwArgumentOr k fallback
  decided : Decided as k entries (.error (.outOfRange (noKeyword k)))
    (lookups.kwArgument k)
  decidedOr : Decided as k entries (.ok fallback)
    (lookups.kwArgumentOr k fallback)

/-- The same for the two lookups in the details. -/
structure WampInvocation.DetailsAgree (invocation : WampInvocation)
    (entries : List (Object × Object)) (k : Octets) : Prop where
  same : invocation.detail as (.ofOctets k) = invocation.detailsAt as k
  decided : Decided as k entries (.error (.outOfRange (noDetail k)))
    (invocation.detailsAt as k)

end

/-- Two decided outcomes are equal where the key is there. -/
theorem Decided.eq_of_hasKey {α : Type} {as : Object → Except Exn α} {k : Octets}
    {entries : List (Object × Object)} {miss miss' x y : Fetch α}
    (hx : Decided as k entries miss x) (hy : Decided as k entries miss' y)
    (h : HasKey k entries) : x = y := by
  obtain ⟨v, hv⟩ := exists_firstEntry h
  rw [hx.found v hv, hy.found v hv]

section

variable {α : Type} {as : Object → Except Exn α} {k : Octets}
  {entries : List (Object × Object)} {fallback : α}

theorem lookup_sameString_decided (miss : Fetch α) :
    Decided as k entries miss (lookup (sameString k) as miss (.map entries)) :=
  searchMap_decided (fun s => sameString_iff k s) entries

theorem lookup_sameChars_decided (hk : 0 ∉ k) (miss : Fetch α) :
    Decided as k entries miss
      (lookup (sameChars (.ofOctets k)) as miss (.map entries)) :=
  searchMap_decided
    (fun s => by rw [sameChars_iff, CString.text_ofOctets hk]) entries

/-- The same outcome on a miss as on a hit: the comparison does not matter. -/
theorem lookup_sameChars (hk : 0 ∉ k) (miss : Fetch α) :
    lookup (sameChars (.ofOctets k)) as miss (.map entries) =
      lookup (sameString k) as miss (.map entries) := by
  have hstring : Decided as k entries miss _ := lookup_sameString_decided miss
  have hchars : Decided as k entries miss _ := lookup_sameChars_decided hk miss
  by_cases h : HasKey k entries
  · exact hchars.eq_of_hasKey hstring h
  · rw [hchars.absent h, hstring.absent h]

/-- What the three classes have in common: the four lookups in a map. -/
def kwLookupsIn (as : Object → Except Exn α) (kwArguments : Object) :
    KwLookups α where
  kwArgument key := lookup (sameString key) as
    (.error (.outOfRange (noKeyword key))) kwArguments
  kwArgumentChars key := lookup (sameChars key) as
    (.error (.outOfRange (noKeyword key.text))) kwArguments
  kwArgumentOr key fallback := lookup (sameString key) as (.ok fallback) kwArguments
  kwArgumentOrChars key fallback := lookup (sameChars key) as
    (.error (.value fallback)) kwArguments

/-- The overloads agree exactly when the key is there: `kw_argument_or` has two
ways to miss it. -/
theorem kwLookupsIn_agree_iff (hk : 0 ∉ k) :
    (kwLookupsIn as (.map entries)).Agree as entries k fallback ↔
      HasKey k entries := by
  have htext := CString.text_ofOctets hk
  have hchars : Decided as k entries (.error (.value fallback)) _ :=
    lookup_sameChars_decided hk _
  constructor
  · intro h
    by_contra hmiss
    have hthrown := hchars.absent hmiss
    have hreturned := h.decidedOr.absent hmiss
    have hsame := h.sameOr
    rw [hreturned] at hsame
    exact absurd (hthrown.symm.trans hsame) nofun
  · intro h
    refine ⟨?_, ?_, lookup_sameString_decided _, lookup_sameString_decided _⟩
    · simp only [kwLookupsIn, htext]
      exact lookup_sameChars hk _
    · exact hchars.eq_of_hasKey (lookup_sameString_decided _) h

theorem WampInvocation.detailsAgree (hk : 0 ∉ k) {invocation : WampInvocation}
    (hdetails : invocation.details = .map entries) :
    invocation.DetailsAgree as entries k := by
  have htext := CString.text_ofOctets hk
  constructor
  · simp only [detail, detailsAt, hdetails, htext]
    exact lookup_sameChars hk _
  · rw [detailsAt, hdetails]
    exact lookup_sameString_decided _

end

/-- **Exactly when the fourteen lookups agree.** For keyword arguments and
details that are maps and a key without a NUL, the overloads of all three
classes do what they are for if and only if some entry of the keyword arguments
has the key. -/
theorem lookups_agree_iff_hasKey {α : Type} (as : Object → Except Exn α)
    (entries details : List (Object × Object)) (k : Octets) (hk : 0 ∉ k)
    (fallback : α) (event : WampEvent) (hevent : event.kwArguments = .map entries)
    (result : WampCallResult) (hresult : result.kwArguments = .map entries)
    (invocation : WampInvocation)
    (hinvocation : invocation.kwArguments = .map entries)
    (hdetails : invocation.details = .map details) :
    (event.kwLookups as).Agree as entries k fallback ∧
      (result.kwLookups as).Agree as entries k fallback ∧
      (invocation.kwLookups as).Agree as entries k fallback ∧
      invocation.DetailsAgree as details k ↔ HasKey k entries := by
  have hclass : (kwLookupsIn as (.map entries)).Agree as entries k fallback ↔
      HasKey k entries := kwLookupsIn_agree_iff hk
  -- the three classes are one definition at three arguments
  have he : event.kwLookups as = kwLookupsIn as (.map entries) := by
    rw [← hevent]
    rfl
  have hr : result.kwLookups as = kwLookupsIn as (.map entries) := by
    rw [← hresult]
    rfl
  have hi : invocation.kwLookups as = kwLookupsIn as (.map entries) := by
    rw [← hinvocation]
    rfl
  rw [he, hr, hi]
  constructor
  · rintro ⟨h, -⟩
    exact hclass.mp h
  · intro h
    exact ⟨hclass.mpr h, hclass.mpr h, hclass.mpr h,
      WampInvocation.detailsAgree hk hdetails⟩

/-- The empty key is found in `{"": 7}`, and every overload returns 7. -/
theorem lookups_agree_for_the_empty_key :
    0 ∉ ([] : Octets) ∧
      ((⟨.array [], .map [(.str [], .positiveInteger 7)]⟩ : WampEvent).kwLookups
        Conversion.asUInt64).Agree Conversion.asUInt64
        [(.str [], .positiveInteger 7)] [] 0 :=
  ⟨by simp,
    ((lookups_agree_iff_hasKey Conversion.asUInt64
      [(.str [], .positiveInteger 7)] [] [] (by simp) 0
      ⟨.array [], .map [(.str [], .positiveInteger 7)]⟩ rfl
      ⟨.array [], .map [(.str [], .positiveInteger 7)]⟩ rfl
      { kwArguments := .map [(.str [], .positiveInteger 7)] } rfl rfl).mpr
      ⟨_, List.mem_singleton.mpr rfl, rfl⟩).1⟩

/-- In the empty map, `kw_argument_or("a", 5)` throws the 5 that
`kw_argument_or(std::string("a"), 5)` returns, in each of the three classes. -/
theorem fallback_thrown_for_a_missing_key :
    (({} : WampEvent).kwArgumentOr Conversion.asUInt64 (octets "a") 5 = .ok 5 ∧
      ({} : WampEvent).kwArgumentOrChars Conversion.asUInt64
        (.ofOctets (octets "a")) 5 = .error (.value 5)) ∧
    (({} : WampCallResult).kwArgumentOr Conversion.asUInt64 (octets "a") 5 =
        .ok 5 ∧
      ({} : WampCallResult).kwArgumentOrChars Conversion.asUInt64
        (.ofOctets (octets "a")) 5 = .error (.value 5)) ∧
    (({} : WampInvocation).kwArgumentOr Conversion.asUInt64 (octets "a") 5 =
        .ok 5 ∧
      ({} : WampInvocation).kwArgumentOrChars Conversion.asUInt64
        (.ofOctets (octets "a")) 5 = .error (.value 5)) :=
  ⟨⟨rfl, rfl⟩, ⟨rfl, rfl⟩, rfl, rfl⟩

end Autobahn
