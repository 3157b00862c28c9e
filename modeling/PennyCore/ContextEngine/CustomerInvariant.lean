import PennyCore.ContextEngine.Linking

/-!
# The customer store and its calls, on hints

The linker calls the repository with the hints of a payload, whose values are `Canonical`. In terms
of hints:

* `ownerOf s t h` is the customer that the index has for a hint; `link` attaches a hint, `linkAll` a
  list of them; `created` is what a creation comes to. `find_…`, `addIdentity_…` and
  `createCustomer_…` say what the calls do.
* `RepoOn rt K`: every index entry has its customer and a row, every row is indexed, stored ids are
  drawn ones, and a customer id belongs to one tenant; a key of `K` passes the contract and has one
  row. `RepoOk`, for all keys, is what holds in every state that the linker reaches.
* `Grows s u`: nothing that `s` stores is changed in `u`.
* `Same s u`: equal but for the draws.
-/

namespace PennyCore

open Lib

namespace InMemoryCustomerRepository

/-! ## Hints in the store -/

/-- The customer that the index has for a hint. -/
def ownerOf (s : InMemoryCustomerRepository) (t : String) (h : IdentityHint) : Option String :=
  s.identityIndex.get? (t, h.kind, h.value)

/-- The customer is stored. -/
def Known (s : InMemoryCustomerRepository) (t c : String) : Prop :=
  ∃ x, s.customers.get? (t, c) = some x

/-- The store with a hint attached to a customer. -/
def link (rt : Runtime) (t : Str 1 64) (c : String) (s : InMemoryCustomerRepository)
    (h : IdentityHint) : InMemoryCustomerRepository :=
  s.insert ⟨"idn_" ++ rt.hex s.drawn, t, c, h.kind, h.value⟩

def linkAll (rt : Runtime) (t : Str 1 64) (c : String) (s : InMemoryCustomerRepository)
    (hints : List IdentityHint) : InMemoryCustomerRepository := hints.foldl (link rt t c) s

/-- The customer that the next creation makes. -/
def newCustomer (rt : Runtime) (t : Str 1 64) (name : Option (Str 0 128))
    (s : InMemoryCustomerRepository) : Customer := ⟨"cust_" ++ rt.hex s.drawn, t, name⟩

/-- The hints before the first that is too long. -/
def fitting (hints : List IdentityHint) : List IdentityHint := hints.takeWhile fun h => Fits h.value

/-- The loop of a creation or its end by a hint that is too long. -/
def linked (rt : Runtime) (t : Str 1 64) (c : String) (hints : List IdentityHint)
    (s : InMemoryCustomerRepository) : InMemoryCustomerRepository :=
  if ∀ h ∈ hints, Fits h.value then linkAll rt t c s hints
  else (linkAll rt t c s (fitting hints)).tick

/-- The store after a creation, whether it returned or raised. -/
def created (rt : Runtime) (t : Str 1 64) (name : Option (Str 0 128)) (hints : List IdentityHint)
    (s : InMemoryCustomerRepository) : InMemoryCustomerRepository :=
  linked rt t (newCustomer rt t name s).id hints (s.addCustomer (newCustomer rt t name s))

/-- Equal but for the draws. -/
structure Same (s u : InMemoryCustomerRepository) : Prop where
  customers : u.customers = s.customers
  identities : u.identities = s.identities
  identityIndex : u.identityIndex = s.identityIndex

/-- Nothing stored is changed. -/
structure Grows (s u : InMemoryCustomerRepository) : Prop where
  customers : ∀ k c, s.customers.get? k = some c → u.customers.get? k = some c
  identityIndex : ∀ k c, s.identityIndex.get? k = some c → u.identityIndex.get? k = some c

/-- The invariant of the store, with the keys of `K` as the linker leaves them. -/
structure RepoOn (rt : Runtime) (K : IdentityKey → Prop) (s : InMemoryCustomerRepository) : Prop where
  key : ∀ t c x, s.customers.get? (t, c) = some x → x.id = c ∧ x.tenantId.1 = t
  customerDrawn : ∀ t c x, s.customers.get? (t, c) = some x →
    ∃ n < s.drawn, c = "cust_" ++ rt.hex n
  identityDrawn : ∀ t i x, s.identities.get? (t, i) = some x → ∃ n < s.drawn, i = "idn_" ++ rt.hex n
  owner : ∀ t k v c, s.identityIndex.get? (t, k, v) = some c → s.Known t c
  row : ∀ t k v c, s.identityIndex.get? (t, k, v) = some c →
    ∃ i x, s.identities.get? (t, i) = some x ∧ x.customerId = c ∧ x.identityKind = k ∧
      x.identityValue = v
  fits : ∀ t k v c, K (t, k, v) → s.identityIndex.get? (t, k, v) = some c → Fits v
  tenant : ∀ t t' c x x', s.customers.get? (t, c) = some x → s.customers.get? (t', c) = some x' →
    t = t'
  indexed : ∀ t i x, s.identities.get? (t, i) = some x →
    s.identityIndex.get? (t, x.identityKind, x.identityValue) = some x.customerId
  once : ∀ t i i' x x', K (t, x.identityKind, x.identityValue) →
    s.identities.get? (t, i) = some x → s.identities.get? (t, i') = some x' →
    x.identityKind = x'.identityKind → x.identityValue = x'.identityValue → i = i'

/-- The invariant of the store. -/
abbrev RepoOk (rt : Runtime) (s : InMemoryCustomerRepository) : Prop := RepoOn rt (fun _ => True) s

variable {K : IdentityKey → Prop} {rt : Runtime} {s u v : InMemoryCustomerRepository} {t : Str 1 64}
  {c : String}
  {h : IdentityHint}

/-- Fewer keys. -/
theorem RepoOn.mono {K' : IdentityKey → Prop} (hK : ∀ k, K' k → K k) (hs : RepoOn rt K s) :
    RepoOn rt K' s where
  key := hs.key
  customerDrawn := hs.customerDrawn
  identityDrawn := hs.identityDrawn
  owner := hs.owner
  row := hs.row
  fits t k v c h := hs.fits t k v c (hK _ h)
  tenant := hs.tenant
  indexed := hs.indexed
  once t i i' x x' h := hs.once t i i' x x' (hK _ h)

/-! ## Relations between stores -/

theorem Same.refl (s : InMemoryCustomerRepository) : Same s s := ⟨rfl, rfl, rfl⟩

theorem Same.trans (h : Same s u) (h' : Same u v) : Same s v :=
  ⟨h'.customers.trans h.customers, h'.identities.trans h.identities,
    h'.identityIndex.trans h.identityIndex⟩

theorem Same.symm (h : Same s u) : Same u s :=
  ⟨h.customers.symm, h.identities.symm, h.identityIndex.symm⟩

theorem Same.tick (s : InMemoryCustomerRepository) : Same s s.tick := ⟨rfl, rfl, rfl⟩

theorem Same.ownerOf (h : Same s u) (t : String) (x : IdentityHint) :
    u.ownerOf t x = s.ownerOf t x := by
  unfold InMemoryCustomerRepository.ownerOf
  rw [h.identityIndex]

/-- A write after the same draws. -/
theorem Same.link (h : Same s u) (hd : u.drawn = s.drawn) (t : Str 1 64) (c : String)
    (x : IdentityHint) : Same (s.link rt t c x) (u.link rt t c x) := by
  unfold InMemoryCustomerRepository.link insert
  rw [hd]
  exact ⟨h.customers, congrArg (fun d => Dict.set d _ _) h.identities,
    congrArg (fun d => Dict.set d _ _) h.identityIndex⟩

theorem Grows.refl (s : InMemoryCustomerRepository) : Grows s s :=
  ⟨fun _ _ h => h, fun _ _ h => h⟩

theorem Grows.trans (h : Grows s u) (h' : Grows u v) : Grows s v :=
  ⟨fun k c hk => h'.customers k c (h.customers k c hk),
    fun k c hk => h'.identityIndex k c (h.identityIndex k c hk)⟩

theorem Same.grows (h : Same s u) : Grows s u :=
  ⟨fun k c hk => by rw [h.customers]; exact hk, fun k c hk => by rw [h.identityIndex]; exact hk⟩

theorem Grows.ownerOf (h : Grows s u) {t : String} {x : IdentityHint} (hx : s.ownerOf t x = some c) :
    u.ownerOf t x = some c := h.identityIndex _ _ hx

/-- What is free later was free before. -/
theorem Grows.free (h : Grows s u) {t : String} {x : IdentityHint} (hx : u.ownerOf t x = none) :
    s.ownerOf t x = none := by
  cases hs : s.ownerOf t x with
  | none => rfl
  | some c =>
    rw [h.ownerOf hs] at hx
    cases hx

theorem Grows.known (h : Grows s u) {t : String} (hc : s.Known t c) : u.Known t c :=
  hc.imp fun x hx => h.customers _ x hx

/-! ## The writes -/

theorem ownerOf_link (t' : String) (x : IdentityHint) :
    (link rt t c s h).ownerOf t' x = if t' = t.1 ∧ x = h then some c else s.ownerOf t' x := by
  unfold ownerOf link insert
  rw [Dict.get?_set]
  by_cases hx : t' = t.1 ∧ x = h
  · obtain ⟨rfl, rfl⟩ := hx
    simp only [and_self, ↓reduceIte]
  · have hne : ¬ (t', x.kind, x.value) = (t.1, h.kind, h.value) := fun heq => hx (by
      cases x
      cases h
      simpa using heq)
    rw [if_neg hne, if_neg hx]

theorem customers_link : (link rt t c s h).customers = s.customers := rfl

/-- Attaching a free hint changes nothing that is stored. -/
theorem Grows.linked (rt : Runtime) (c : String) (hfree : s.ownerOf t.1 h = none) :
    Grows s (s.link rt t c h) := by
  refine ⟨fun k x hk => hk, fun k x hk => ?_⟩
  refine (Dict.get?_set_ne _ _ fun heq => ?_).trans hk
  subst heq
  rw [show s.identityIndex.get? (t.1, h.kind, h.value) = none from hfree] at hk
  cases hk

theorem RepoOn.empty : RepoOn rt K {} :=
  ⟨fun _ _ _ h => (by cases h), fun _ _ _ h => (by cases h), fun _ _ _ h => (by cases h),
    fun _ _ _ _ h => (by cases h), fun _ _ _ _ h => (by cases h), fun _ _ _ _ _ h => (by cases h),
    fun _ _ _ _ _ h => (by cases h), fun _ _ _ h => (by cases h), fun _ _ _ _ _ _ h => (by cases h)⟩

theorem RepoOn.tick (hs : RepoOn rt K s) : RepoOn rt K s.tick := by
  refine ⟨hs.key, fun t c x hx => ?_, fun t i x hx => ?_, hs.owner, hs.row, hs.fits, hs.tenant,
    hs.indexed, hs.once⟩
  · exact (hs.customerDrawn t c x hx).imp fun n hn => ⟨Nat.lt_succ_of_lt hn.1, hn.2⟩
  · exact (hs.identityDrawn t i x hx).imp fun n hn => ⟨Nat.lt_succ_of_lt hn.1, hn.2⟩

/-- The next drawn id is not in use. -/
theorem drawn_fresh {tag : String} {n d : Nat} (hn : n < d) : tag ++ rt.hex d ≠ tag ++ rt.hex n := by
  intro heq
  have hhex : rt.hex d = rt.hex n := (String.append_right_inj tag).mp heq
  have := rt.hex_inj hhex
  omega

/-- An id that was drawn has been drawn after one more draw. -/
theorem drawn_later {hex : Nat → String} {tag id : String} {d : Nat}
    (h : ∃ n < d, id = tag ++ hex n) : ∃ n < d + 1, id = tag ++ hex n := by
  obtain ⟨n, hn, hid⟩ := h
  exact ⟨n, Nat.lt_succ_of_lt hn, hid⟩

/-- One more row for a hint that is free or the customer's; a key of `K` must be free. -/
theorem RepoOn.relink (hs : RepoOn rt K s) (hc : s.Known t.1 c)
    (hown : ∀ c', s.ownerOf t.1 h = some c' → c' = c)
    (hclean : K (t.1, h.kind, h.value) → s.ownerOf t.1 h = none ∧ Fits h.value) :
    RepoOn rt K (s.link rt t c h) := by
  -- an old row is not overwritten: the new id is a fresh draw
  have hold : ∀ t' i x, s.identities.get? (t', i) = some x →
      (s.link rt t c h).identities.get? (t', i) = some x := fun t' i x hx => by
    refine (Dict.get?_set_ne _ _ fun heq => ?_).trans hx
    obtain ⟨n, hn, rfl⟩ := hs.identityDrawn t' i x hx
    exact drawn_fresh hn (congrArg Prod.snd heq).symm
  -- a row is the new one or an old one
  have hrow : ∀ t' i x, (s.link rt t c h).identities.get? (t', i) = some x →
      (t' = t.1 ∧ i = "idn_" ++ rt.hex s.drawn ∧ x = ⟨i, t, c, h.kind, h.value⟩) ∨
        s.identities.get? (t', i) = some x := fun t' i x hx => by
    change (s.identities.set _ _).get? (t', i) = some x at hx
    rw [Dict.get?_set] at hx
    split at hx
    · rename_i heq
      have hi : i = "idn_" ++ rt.hex s.drawn := congrArg Prod.snd heq
      exact .inl ⟨congrArg Prod.fst heq, hi, by rw [hi]; exact (Option.some.inj hx).symm⟩
    · exact .inr hx
  -- an index entry is the new one or an old one
  have hentry : ∀ t' k v c', (s.link rt t c h).identityIndex.get? (t', k, v) = some c' →
      (t' = t.1 ∧ (⟨k, v⟩ : IdentityHint) = h ∧ c' = c) ∨
        s.identityIndex.get? (t', k, v) = some c' := fun t' k v c' hi => by
    have howner : (s.link rt t c h).ownerOf t' ⟨k, v⟩ = _ := ownerOf_link t' ⟨k, v⟩
    rw [show (s.link rt t c h).ownerOf t' ⟨k, v⟩ = some c' from hi] at howner
    split at howner
    · rename_i heq
      exact .inl ⟨heq.1, heq.2, Option.some.inj howner⟩
    · exact .inr howner.symm
  have hself : (s.link rt t c h).identityIndex.get? (t.1, h.kind, h.value) = some c :=
    Dict.get?_set_self _ _ _
  -- a hint with a key of `K` was free, so no old row has it
  have hnew : K (t.1, h.kind, h.value) → ∀ i x, s.identities.get? (t.1, i) = some x →
      x.identityKind = h.kind → x.identityValue = h.value → False := fun hK i x hx hk hv => by
    have hi := hs.indexed t.1 i x hx
    rw [hk, hv, show s.identityIndex.get? (t.1, h.kind, h.value) = none from (hclean hK).1] at hi
    cases hi
  refine ⟨hs.key, fun t' c' x hx => ?_, fun t' i x hx => ?_, fun t' k v c' hi => ?_,
    fun t' k v c' hi => ?_, fun t' k v c' hK hi => ?_, hs.tenant, fun t' i x hx => ?_,
    fun t' i i' x x' hK hx hx' hk hv => ?_⟩
  · exact (hs.customerDrawn t' c' x hx).imp fun n hn => ⟨Nat.lt_succ_of_lt hn.1, hn.2⟩
  · rcases hrow t' i x hx with ⟨-, rfl, -⟩ | hx
    · exact ⟨s.drawn, Nat.lt_succ_self _, rfl⟩
    · exact (hs.identityDrawn t' i x hx).imp fun n hn => ⟨Nat.lt_succ_of_lt hn.1, hn.2⟩
  · rcases hentry t' k v c' hi with ⟨rfl, -, rfl⟩ | hi
    · exact hc
    · exact hs.owner t' k v c' hi
  · rcases hentry t' k v c' hi with ⟨rfl, rfl, rfl⟩ | hi
    · exact ⟨_, _, Dict.get?_set_self _ _ _, rfl, rfl, rfl⟩
    · obtain ⟨i, x, hx, hrest⟩ := hs.row t' k v c' hi
      exact ⟨i, x, hold t' i x hx, hrest⟩
  · rcases hentry t' k v c' hi with ⟨rfl, rfl, -⟩ | hi
    · exact (hclean hK).2
    · exact hs.fits t' k v c' hK hi
  · rcases hrow t' i x hx with ⟨rfl, rfl, rfl⟩ | hx
    · exact hself
    · have hi := hs.indexed t' i x hx
      by_cases heq : (t', x.identityKind, x.identityValue) = (t.1, h.kind, h.value)
      · rw [heq] at hi ⊢
        rw [hself, hown _ hi]
      · exact (Dict.get?_set_ne _ _ heq).trans hi
  · rcases hrow t' i x hx with ⟨rfl, rfl, rfl⟩ | hx <;>
      rcases hrow _ i' x' hx' with ⟨ht, rfl, rfl⟩ | hx'
    · rfl
    · exact (hnew hK i' x' hx' hk.symm hv.symm).elim
    · subst ht
      rw [hk, hv] at hK
      exact (hnew hK i x hx hk hv).elim
    · exact hs.once t' i i' x x' hK hx hx' hk hv

theorem RepoOn.link (hs : RepoOn rt K s) (hc : s.Known t.1 c) (hfree : s.ownerOf t.1 h = none)
    (hfit : Fits h.value) : RepoOn rt K (s.link rt t c h) := by
  refine hs.relink hc (fun c' hc' => ?_) fun _ => ⟨hfree, hfit⟩
  rw [hfree] at hc'
  cases hc'

theorem RepoOn.addCustomer (hs : RepoOn rt K s) (name : Option (Str 0 128)) :
    RepoOn rt K (s.addCustomer (newCustomer rt t name s)) ∧
      Grows s (s.addCustomer (newCustomer rt t name s)) := by
  have hfresh : ∀ t' x, s.customers.get? (t', "cust_" ++ rt.hex s.drawn) ≠ some x :=
    fun t' x hx => by
      obtain ⟨n, hn, heq⟩ := hs.customerDrawn t' _ x hx
      exact drawn_fresh hn heq
  have hcases : ∀ t' c' x,
      (s.addCustomer (newCustomer rt t name s)).customers.get? (t', c') = some x →
      (t' = t.1 ∧ c' = "cust_" ++ rt.hex s.drawn ∧ x = newCustomer rt t name s) ∨
        s.customers.get? (t', c') = some x := fun t' c' x hx => by
    change (s.customers.set _ _).get? (t', c') = some x at hx
    rw [Dict.get?_set] at hx
    split at hx
    · rename_i heq
      exact .inl ⟨congrArg Prod.fst heq, congrArg Prod.snd heq, (Option.some.inj hx).symm⟩
    · exact .inr hx
  have hgrows : Grows s (s.addCustomer (newCustomer rt t name s)) := by
    refine ⟨fun k x hk => ?_, fun k x hk => hk⟩
    refine (Dict.get?_set_ne _ _ fun heq => ?_).trans hk
    subst heq
    exact hfresh _ x hk
  refine ⟨⟨fun t' c' x hx => ?_, fun t' c' x hx => ?_, fun t' i x hx => ?_, fun t' k v c' hi => ?_,
    hs.row, hs.fits, fun t₁ t₂ c' x₁ x₂ h₁ h₂ => ?_, hs.indexed, hs.once⟩, hgrows⟩
  · rcases hcases t' c' x hx with ⟨rfl, rfl, rfl⟩ | hx
    · exact ⟨rfl, rfl⟩
    · exact hs.key t' c' x hx
  · rcases hcases t' c' x hx with ⟨rfl, rfl, rfl⟩ | hx
    · exact ⟨s.drawn, Nat.lt_succ_self _, rfl⟩
    · exact (hs.customerDrawn t' c' x hx).imp fun n hn => ⟨Nat.lt_succ_of_lt hn.1, hn.2⟩
  · exact (hs.identityDrawn t' i x hx).imp fun n hn => ⟨Nat.lt_succ_of_lt hn.1, hn.2⟩
  · exact hgrows.known (hs.owner t' k v c' hi)
  · rcases hcases t₁ c' x₁ h₁ with ⟨rfl, rfl, -⟩ | h₁' <;>
      rcases hcases t₂ _ x₂ h₂ with ⟨rfl, hc', -⟩ | h₂'
    · rfl
    · exact (hfresh _ _ h₂').elim
    · subst hc'
      exact (hfresh _ _ h₁').elim
    · exact hs.tenant t₁ t₂ c' x₁ x₂ h₁' h₂'

theorem ownerOf_linkAll (hints : List IdentityHint) (t' : String) (x : IdentityHint) :
    (linkAll rt t c s hints).ownerOf t' x =
      if t' = t.1 ∧ x ∈ hints then some c else s.ownerOf t' x := by
  unfold linkAll
  induction hints generalizing s with
  | nil => simp
  | cons h hints ih =>
    rw [List.foldl_cons, ih, ownerOf_link]
    by_cases hin : t' = t.1 ∧ x ∈ hints
    · rw [if_pos hin, if_pos ⟨hin.1, List.mem_cons_of_mem h hin.2⟩]
    · rw [if_neg hin]
      by_cases hx : t' = t.1 ∧ x = h
      · rw [if_pos hx, if_pos ⟨hx.1, hx.2 ▸ List.mem_cons_self⟩]
      · rw [if_neg hx, if_neg fun hc => (List.mem_cons.mp hc.2).elim (fun h' => hx ⟨hc.1, h'⟩)
          fun h' => hin ⟨hc.1, h'⟩]

/-- Attaching free hints, no two alike and none too long. -/
theorem RepoOn.linkAll (hs : RepoOn rt K s) (hc : s.Known t.1 c) {hints : List IdentityHint}
    (hfree : ∀ h ∈ hints, s.ownerOf t.1 h = none) (hfit : ∀ h ∈ hints, Fits h.value)
    (hnd : hints.Nodup) :
    RepoOn rt K (s.linkAll rt t c hints) ∧ Grows s (s.linkAll rt t c hints) := by
  unfold InMemoryCustomerRepository.linkAll
  induction hints generalizing s with
  | nil => exact ⟨hs, Grows.refl s⟩
  | cons h hints ih =>
    obtain ⟨hnot, hnd⟩ := List.nodup_cons.mp hnd
    have hfirst := hfree h List.mem_cons_self
    have hstep := Grows.linked rt c hfirst
    obtain ⟨hok, hgrows⟩ := ih (hs.link hc hfirst (hfit h List.mem_cons_self)) (hstep.known hc)
      (fun x hx => by
        rw [ownerOf_link, if_neg fun heq : t.1 = t.1 ∧ x = h => hnot (heq.2 ▸ hx)]
        exact hfree x (List.mem_cons_of_mem h hx))
      (fun x hx => hfit x (List.mem_cons_of_mem h hx)) hnd
    exact ⟨hok, hstep.trans hgrows⟩

theorem fitting_eq {hints : List IdentityHint} (h : ∀ x ∈ hints, Fits x.value) :
    fitting hints = hints := List.takeWhile_eq_self_iff.mpr fun x hx => decide_eq_true (h x hx)

theorem fitting_sublist (hints : List IdentityHint) : (fitting hints).Sublist hints :=
  List.takeWhile_sublist _

theorem fits_of_mem_fitting {hints : List IdentityHint} {x : IdentityHint} (hx : x ∈ fitting hints) :
    Fits x.value := by
  unfold fitting at hx
  simpa using List.mem_takeWhile_imp hx

/-- Up to the draws, a creation attaches the hints before the first that is too long. -/
theorem linked_same (hints : List IdentityHint) :
    Same (linkAll rt t c s (fitting hints)) (linked rt t c hints s) := by
  unfold linked
  split
  · rename_i h
    rw [fitting_eq h]
    exact Same.refl _
  · exact Same.tick _

theorem RepoOn.linked (hs : RepoOn rt K s) (hc : s.Known t.1 c) {hints : List IdentityHint}
    (hfree : ∀ h ∈ hints, s.ownerOf t.1 h = none) (hnd : hints.Nodup) :
    RepoOn rt K (s.linked rt t c hints) ∧ Grows s (s.linked rt t c hints) := by
  unfold InMemoryCustomerRepository.linked
  split
  · rename_i hfit
    exact hs.linkAll hc hfree hfit hnd
  · obtain ⟨hok, hgrows⟩ := hs.linkAll hc
      (fun x hx => hfree x ((fitting_sublist hints).subset hx))
      (fun x hx => fits_of_mem_fitting hx)
      (hnd.sublist (fitting_sublist hints))
    exact ⟨hok.tick, hgrows.trans (Same.tick _).grows⟩

theorem RepoOn.created (hs : RepoOn rt K s) {hints : List IdentityHint}
    (hfree : ∀ h ∈ hints, s.ownerOf t.1 h = none) (hnd : hints.Nodup)
    (name : Option (Str 0 128)) :
    RepoOn rt K (s.created rt t name hints) ∧ Grows s (s.created rt t name hints) := by
  obtain ⟨hok, hgrows⟩ := hs.addCustomer (t := t) name
  obtain ⟨hok', hgrows'⟩ := hok.linked (c := (newCustomer rt t name s).id)
    ⟨_, Dict.get?_set_self _ _ _⟩ hfree hnd
  exact ⟨hok', hgrows.trans hgrows'⟩

theorem ownerOf_created (hints : List IdentityHint) (name : Option (Str 0 128)) (x : IdentityHint) :
    (s.created rt t name hints).ownerOf t.1 x =
      if x ∈ fitting hints then some (newCustomer rt t name s).id else s.ownerOf t.1 x := by
  unfold created
  rw [(linked_same hints).ownerOf, ownerOf_linkAll]
  simp only [true_and]
  rfl

theorem linkAll_customers (hints : List IdentityHint) :
    (linkAll rt t c s hints).customers = s.customers := by
  unfold linkAll
  induction hints generalizing s with
  | nil => rfl
  | cons h hints ih => rw [List.foldl_cons, ih, customers_link]

/-- A creation adds one customer. -/
theorem created_customers (hints : List IdentityHint) (name : Option (Str 0 128)) :
    (s.created rt t name hints).customers =
      s.customers.set (t.1, (newCustomer rt t name s).id) (newCustomer rt t name s) := by
  unfold created
  rw [(linked_same hints).customers, linkAll_customers]
  rfl

/-! ## The calls -/

theorem getCustomer_run (s : InMemoryCustomerRepository) (t c : String) :
    (getCustomer t c).run s = (.ok (s.customers.get? (t, c)), s) := rfl

theorem find_free {t : String} (hf : s.ownerOf t h = none) :
    (findCustomerByIdentity t h.kind h.value).run s = (.ok none, s) := by
  unfold findCustomerByIdentity
  rw [Py.run_bind_ok (Py.run_get s), show s.identityIndex.get? (t, h.kind, h.value) = none from hf]
  rfl

theorem find_owned (hs : RepoOn rt K s) {t : String} (hf : s.ownerOf t h = some c) :
    ∃ x, x.id = c ∧ (findCustomerByIdentity t h.kind h.value).run s = (.ok (some x), s) := by
  obtain ⟨x, hx⟩ := hs.owner t h.kind h.value c hf
  refine ⟨x, (hs.key t c x hx).1, ?_⟩
  unfold findCustomerByIdentity
  rw [Py.run_bind_ok (Py.run_get s), show s.identityIndex.get? (t, h.kind, h.value) = some c from hf]
  exact congrArg (fun o => (Except.ok o, s)) hx

theorem insertIdentityLocked_run (hcan : Canonical rt.caseData h.kind h.value) :
    (insertIdentityLocked rt t.1 c h.kind h.value).run s =
      if Fits h.value then (.ok ⟨"idn_" ++ rt.hex s.drawn, t, c, h.kind, h.value⟩, s.link rt t c h)
      else (.error (.validation valueRefused), s.tick) := by
  have hid : (newIdentityId rt).run s = (.ok ("idn_" ++ rt.hex s.drawn), s.tick) := rfl
  unfold insertIdentityLocked
  rw [Py.run_bind_ok hid, hcan.new]
  by_cases hf : Fits h.value
  · rw [if_pos hf, if_pos hf]
    rfl
  · rw [if_neg hf, if_neg hf]
    rfl

theorem addFresh_run (hcan : Canonical rt.caseData h.kind h.value) (hc : s.Known t.1 c) :
    (addFresh rt t.1 c h.kind h.value).run s =
      if Fits h.value then (.ok ⟨"idn_" ++ rt.hex s.drawn, t, c, h.kind, h.value⟩, s.link rt t c h)
      else (.error (.validation valueRefused), s.tick) := by
  obtain ⟨x, hx⟩ := hc
  unfold addFresh
  rw [Py.run_bind_ok (Py.run_get s), hx]
  exact insertIdentityLocked_run hcan

/-- `add_identity` of a free hint. -/
theorem addIdentity_free (hcan : Canonical rt.caseData h.kind h.value) (hc : s.Known t.1 c)
    (hf : s.ownerOf t.1 h = none) :
    (addIdentity rt t.1 c h.kind h.value).run s =
      if Fits h.value then (.ok ⟨"idn_" ++ rt.hex s.drawn, t, c, h.kind, h.value⟩, s.link rt t c h)
      else (.error (.validation valueRefused), s.tick) := by
  unfold addIdentity
  simp only [hcan.index]
  rw [Py.run_bind_ok (Py.run_get s), show s.identityIndex.get? (t.1, h.kind, h.value) = none from hf]
  exact addFresh_run hcan hc

/-- `add_identity` of a hint that is the customer's already. -/
theorem addIdentity_again (hs : RepoOn rt K s) (hcan : Canonical rt.caseData h.kind h.value)
    (hf : s.ownerOf t.1 h = some c) :
    ∃ row, (addIdentity rt t.1 c h.kind h.value).run s = (.ok row, s) := by
  obtain ⟨i, x, hx, hrest⟩ := hs.row t.1 h.kind h.value c hf
  have hmem : ((t.1, i), x) ∈ s.identities.entries := Dict.get?_eq_some.mp hx
  unfold addIdentity
  simp only [hcan.index]
  rw [Py.run_bind_ok (Py.run_get s), show s.identityIndex.get? (t.1, h.kind, h.value) = some c from hf]
  simp only [ne_eq, not_true_eq_false, ↓reduceIte]
  cases hfind : s.identities.entries.find? (sameRow t.1 c h.kind h.value) with
  | some e => exact ⟨e.2, rfl⟩
  | none =>
    have hnot := List.find?_eq_none.mp hfind _ hmem
    exact absurd (by simp [sameRow, hrest]) hnot

/-- `add_identity` of a hint that is another customer's. -/
theorem addIdentity_other (hcan : Canonical rt.caseData h.kind h.value) {c' : String}
    (hf : s.ownerOf t.1 h = some c') (hne : c' ≠ c) :
    (addIdentity rt t.1 c h.kind h.value).run s =
      (.error (.cannotReattach h.kind h.value c' c), s) := by
  unfold addIdentity
  simp only [hcan.index]
  rw [Py.run_bind_ok (Py.run_get s),
    show s.identityIndex.get? (t.1, h.kind, h.value) = some c' from hf]
  simp only [ne_eq, hne, not_false_eq_true, ↓reduceIte]
  rfl

/-- The arguments of `create_customer` for the hints. -/
abbrev pairs (hints : List IdentityHint) : List (IdentityKind × String) :=
  hints.map fun h => (h.kind, h.value)

/-- The look-up passes if no identity is known, whatever the values are. -/
theorem preflight_pass {tenantId : String} {identities : List (IdentityKind × String)}
    (h : ∀ p ∈ identities,
      s.identityIndex.get? (tenantId, p.1, identIndexValue rt.caseData p.1 p.2) = none) :
    (preflight rt tenantId identities).run s = (.ok (), s) := by
  induction identities with
  | nil => rfl
  | cons p rest ih =>
    unfold preflight
    rw [Py.run_bind_ok (Py.run_get s), h p List.mem_cons_self]
    exact ih fun q hq => h q (List.mem_cons_of_mem p hq)

theorem preflight_collision {tenantId : String} {identities : List (IdentityKind × String)}
    (h : ∃ p ∈ identities,
      s.identityIndex.get? (tenantId, p.1, identIndexValue rt.caseData p.1 p.2) ≠ none) :
    ∃ e, e.IsCollision ∧ (preflight rt tenantId identities).run s = (.error e, s) := by
  induction identities with
  | nil =>
    obtain ⟨p, hp, -⟩ := h
    cases hp
  | cons p rest ih =>
    unfold preflight
    rw [Py.run_bind_ok (Py.run_get s)]
    cases hfirst : s.identityIndex.get? (tenantId, p.1, identIndexValue rt.caseData p.1 p.2) with
    | some existing => exact ⟨.alreadyLinked p.1 _ existing tenantId, trivial, rfl⟩
    | none =>
      apply ih
      obtain ⟨q, hq, hne⟩ := h
      rcases List.mem_cons.mp hq with rfl | hq
      · exact absurd hfirst hne
      · exact ⟨q, hq, hne⟩

section Lists

variable {hints : List IdentityHint} (hcan : ∀ h ∈ hints, Canonical rt.caseData h.kind h.value)

include hcan

theorem preflight_free (hf : ∀ h ∈ hints, s.ownerOf t.1 h = none) :
    (preflight rt t.1 (pairs hints)).run s = (.ok (), s) := by
  refine preflight_pass fun p hp => ?_
  obtain ⟨h, hh, rfl⟩ := List.mem_map.mp hp
  have hfree := hf h hh
  dsimp only
  rw [(hcan h hh).index]
  exact hfree

theorem preflight_owned (hf : ∃ h ∈ hints, s.ownerOf t.1 h ≠ none) :
    ∃ e, e.IsCollision ∧ (preflight rt t.1 (pairs hints)).run s = (.error e, s) := by
  obtain ⟨h, hh, hne⟩ := hf
  refine preflight_collision ⟨(h.kind, h.value), List.mem_map.mpr ⟨h, hh, rfl⟩, ?_⟩
  dsimp only
  rw [(hcan h hh).index]
  exact hne

theorem insertAll_run :
    (insertAll rt t.1 c (pairs hints)).run s =
      (if ∀ h ∈ hints, Fits h.value then .ok () else .error (.validation valueRefused),
        linked rt t c hints s) := by
  induction hints generalizing s with
  | nil => simp [insertAll, linked, linkAll]
  | cons h hints ih =>
    have hins := insertIdentityLocked_run (s := s) (t := t) (c := c) (hcan h List.mem_cons_self)
    have hrest := ih (fun x hx => hcan x (List.mem_cons_of_mem h hx)) (s := s.link rt t c h)
    unfold insertAll pairs
    rw [List.map_cons]
    by_cases hfit : Fits h.value
    · rw [if_pos hfit] at hins
      rw [Py.run_bind_ok hins]
      refine hrest.trans ?_
      simp only [linked, linkAll, fitting, List.forall_mem_cons, hfit, true_and, List.foldl_cons,
        List.takeWhile_cons, decide_true, ↓reduceIte]
    · rw [if_neg hfit] at hins
      rw [Py.run_bind_error hins]
      simp only [linked, linkAll, fitting, List.forall_mem_cons, hfit, false_and, ↓reduceIte,
        List.takeWhile_cons, decide_false, Bool.false_eq_true, List.foldl_nil]

/-- A creation from free hints. -/
theorem createCustomer_free (hf : ∀ h ∈ hints, s.ownerOf t.1 h = none) {name : Option String}
    {name' : Option (Str 0 128)}
    (hn : Str.checkOpt 128 "Customer" "display_name" name = .ok name') :
    (createCustomer rt t.1 (pairs hints) name).run s =
      (if ∀ h ∈ hints, Fits h.value then .ok (newCustomer rt t name' s)
        else .error (.validation valueRefused), s.created rt t name' hints) := by
  have hid : (newCustomerId rt).run s = (.ok ("cust_" ++ rt.hex s.drawn), s.tick) := rfl
  have hnew : Customer.new ("cust_" ++ rt.hex s.drawn) t.1 name = .ok (newCustomer rt t name' s) := by
    unfold Customer.new
    rw [Str.check_ok t.2]
    simp only [bind, Except.bind, hn]
    rfl
  have hall := insertAll_run hcan (t := t) (c := (newCustomer rt t name' s).id)
    (s := s.addCustomer (newCustomer rt t name' s))
  unfold createCustomer
  rw [Py.run_bind_ok (preflight_free hcan hf), Py.run_bind_ok hid, hnew]
  change Py.run (insertAll rt t.1 (newCustomer rt t name' s).id (pairs hints) >>= fun _ =>
    pure (newCustomer rt t name' s)) (s.addCustomer (newCustomer rt t name' s)) = _
  by_cases hfit : ∀ h ∈ hints, Fits h.value
  · rw [if_pos hfit] at hall ⊢
    exact Py.run_bind_ok hall
  · rw [if_neg hfit] at hall ⊢
    exact Py.run_bind_error hall

/-- A creation with a hint that somebody has. -/
theorem createCustomer_owned (hf : ∃ h ∈ hints, s.ownerOf t.1 h ≠ none) (name : Option String) :
    ∃ e, e.IsCollision ∧ (createCustomer rt t.1 (pairs hints) name).run s = (.error e, s) := by
  obtain ⟨e, he, hrun⟩ := preflight_owned hcan hf
  exact ⟨e, he, Py.run_bind_error hrun⟩

/-- A creation from free hints whose display name the contract refuses. -/
theorem createCustomer_unnamed (hf : ∀ h ∈ hints, s.ownerOf t.1 h = none) {name : Option String}
    {e : ValidationError} (hn : Str.checkOpt 128 "Customer" "display_name" name = .error e) :
    (createCustomer rt t.1 (pairs hints) name).run s = (.error (.validation e), s.tick) := by
  have hid : (newCustomerId rt).run s = (.ok ("cust_" ++ rt.hex s.drawn), s.tick) := rfl
  have hnew : Customer.new ("cust_" ++ rt.hex s.drawn) t.1 name = .error e := by
    unfold Customer.new
    rw [Str.check_ok t.2]
    simp only [bind, Except.bind, hn]
  unfold createCustomer
  rw [Py.run_bind_ok (preflight_free hcan hf), Py.run_bind_ok hid, hnew]
  rfl

end Lists

end InMemoryCustomerRepository

/-- The display name of a payload is never too long. -/
theorem extractDisplayName_length {payload : Payload} {v : String}
    (hx : extractDisplayName payload = some v) : v.length ≤ 128 := by
  obtain ⟨key, -, hkey⟩ := List.exists_of_findSome?_eq_some hx
  split at hkey
  · rename_i raw _
    by_cases hv : strip raw = ""
    · rw [if_pos hv] at hkey
      cases hkey
    · rw [if_neg hv] at hkey
      rw [← Option.some.inj hkey, truncateName, String.length_ofList, List.length_take]
      exact Nat.min_le_left _ _
  · cases hkey

/-- The display name of a payload passes the customer contract if it has no lone surrogate. -/
theorem NameFits.check {payload : Payload} (h : NameFits payload) :
    ∃ name, Str.checkOpt 128 "Customer" "display_name" (extractDisplayName payload) = .ok name := by
  cases hx : extractDisplayName payload with
  | none => exact ⟨none, rfl⟩
  | some v => exact ⟨_, Str.checkOpt_ok ⟨extractDisplayName_length hx, h v hx⟩⟩

theorem check_of_not_nameFits {payload : Payload} (h : ¬ NameFits payload) :
    ∃ e, Str.checkOpt 128 "Customer" "display_name" (extractDisplayName payload) = .error e := by
  unfold NameFits at h
  push Not at h
  obtain ⟨v, hv, hbad⟩ := h
  rw [hv]
  exact ⟨_, Str.checkOpt_error fun hok => hbad hok.2⟩

end PennyCore
