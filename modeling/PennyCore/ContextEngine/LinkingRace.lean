import PennyCore.ContextEngine.CreationAtomicity
import PennyCore.ContextEngine.LinkingSettled

/-!
# Racing linkers

Any number of linker calls at the same time, with the hints of one payload and no customer id.

* If a hint is known when they start, all of them attach to its customer (`Attaching`).
* If none is known, the first creation wins: `Creating … s₀ s` says that the store is still the first
  one, or that of one creation. A call that comes later collides in its pre-flight check and matches.
* `resolve_pays`: a call reports a creation only if it made the store larger, so at most one of them
  does.

`linking_race` is the statement for every interleaving of the calls.
-/

namespace PennyCore

open Lib InMemoryCustomerRepository

/-! ## Creation -/

section Creating

variable {rt : Runtime} {K : IdentityKey → Prop} {t : Str 1 64} {hints : List IdentityHint}
  {names : Option (Str 0 128) → Prop} {s₀ s : InMemoryCustomerRepository} {c : String}

/-- The id of the customer that the next creation makes. -/
def newId (rt : Runtime) (s : InMemoryCustomerRepository) : String := "cust_" ++ rt.hex s.drawn

/-- The store after a creation from `s₀`, with one of the names. -/
def Created (rt : Runtime) (t : Str 1 64) (hints : List IdentityHint)
    (names : Option (Str 0 128) → Prop) (s₀ s : InMemoryCustomerRepository) : Prop :=
  ∃ name, names name ∧ Same (s₀.created rt t name hints) s

/-- No creation yet, or one. -/
structure Creating (rt : Runtime) (K : IdentityKey → Prop) (t : Str 1 64)
    (hints : List IdentityHint) (names : Option (Str 0 128) → Prop)
    (s₀ s : InMemoryCustomerRepository) : Prop where
  ok : RepoOn rt K s
  grows : Grows s₀ s
  phase : s = s₀ ∨ Created rt t hints names s₀ s

/-- The first hint fits, and none is known. -/
structure Fresh (rt : Runtime) (K : IdentityKey → Prop) (t : Str 1 64) (hints : List IdentityHint)
    (s₀ : InMemoryCustomerRepository) : Prop where
  ok : RepoOn rt K s₀
  nodup : hints.Nodup
  free : ∀ h ∈ hints, s₀.ownerOf t.1 h = none
  first : ∃ h ∈ fitting hints, h ∈ hints

theorem Fresh.unknown (hf : Fresh rt K t hints s₀) : ¬ s₀.Known t.1 (newId rt s₀) := fun ⟨x, hx⟩ => by
  obtain ⟨n, hn, heq⟩ := hf.ok.customerDrawn _ _ _ hx
  exact drawn_fresh hn heq

/-- After a creation exactly the hints that were inserted are known. -/
theorem Created.ownerOf (h : Created rt t hints names s₀ s) (hf : Fresh rt K t hints s₀)
    {x : IdentityHint} (hx : x ∈ hints) :
    s.ownerOf t.1 x = if x ∈ fitting hints then some (newId rt s₀) else none := by
  obtain ⟨name, -, hsame⟩ := h
  rw [hsame.ownerOf, ownerOf_created, hf.free x hx]
  rfl

theorem Created.owner (h : Created rt t hints names s₀ s) (hf : Fresh rt K t hints s₀)
    {x : IdentityHint} (hx : x ∈ hints) (ho : s.ownerOf t.1 x = some c) :
    c = newId rt s₀ ∧ x ∈ fitting hints := by
  rw [h.ownerOf hf hx] at ho
  split at ho
  · rename_i hin
    exact ⟨(Option.some.inj ho).symm, hin⟩
  · cases ho

/-- A hint after hints that were inserted is inserted if it fits. -/
theorem mem_fitting_next {pre post : List IdentityHint} {h : IdentityHint}
    (hsplit : hints = pre ++ h :: post) (hpre : ∀ x ∈ pre, x ∈ fitting hints) (hfit : Fits h.value) :
    h ∈ fitting hints := by
  have hall : ∀ x ∈ pre, decide (Fits x.value) = true := fun x hx =>
    decide_eq_true (fits_of_mem_fitting (hpre x hx))
  unfold fitting
  rw [hsplit, List.takeWhile_append_of_pos hall, List.takeWhile_cons_of_pos (by exact decide_eq_true hfit)]
  exact List.mem_append_right _ List.mem_cons_self

/-- The protocol of a race to create. -/
def creating (ι : Type) (rt : Runtime) (K : IdentityKey → Prop) (t : Str 1 64)
    (hints : List IdentityHint) (names : Option (Str 0 128) → Prop) (s₀ : InMemoryCustomerRepository) :
    Protocol ι InMemoryCustomerRepository where
  inv := Creating rt K t hints names s₀
  rely := fun _ s u => Grows s u ∧ (Created rt t hints names s₀ s → Created rt t hints names s₀ u)
  guar := fun _ s u => Grows s u ∧ (Created rt t hints names s₀ s → Created rt t hints names s₀ u)
  refl := fun _ s => ⟨Grows.refl s, id⟩
  trans := fun _ _ _ _ h h' => ⟨h.1.trans h'.1, h'.2 ∘ h.2⟩
  compat := fun _ _ h => h

theorem creating_allows {ι : Type} (i : ι) (hf : Fresh rt K t hints s₀) {name : Option (Str 0 128)}
    (hn : names name) :
    Allows (creating ι rt K t hints names s₀) i rt t hints (.ok name) (fun _ => True)
      (fun c => c = newId rt s₀) (Created rt t hints names s₀) where
  ok := fun h => h.ok.mono fun _ h => h.elim
  grows := fun h => h.1
  still := fun {s} _ => ⟨Grows.refl s, id⟩
  add := fun {s c pre h post} hi hc hk hsplit hpre hfree hfit => by
    subst hc
    rcases hi.phase with rfl | hcr
    · exact absurd hk hf.unknown
    · have hmem : ∀ x ∈ pre, x ∈ hints := fun x hx => hsplit ▸ List.mem_append_left _ hx
      have hh : h ∈ hints := hsplit ▸ List.mem_append_right _ List.mem_cons_self
      have hin := mem_fitting_next hsplit
        (fun x hx => (hcr.owner hf (hmem x hx) (hpre x hx)).2) hfit
      rw [hcr.ownerOf hf hh, if_pos hin] at hfree
      cases hfree
  tick := fun {s c pre h post} hi hc hk _ _ _ _ => by
    subst hc
    have htick : Created rt t hints names s₀ s → Created rt t hints names s₀ s.tick :=
      fun ⟨name, hn, hsame⟩ => ⟨name, hn, hsame.trans (Same.tick s)⟩
    refine ⟨⟨hi.ok.tick, hi.grows.trans (Same.tick s).grows, ?_⟩, (Same.tick s).grows, htick⟩
    rcases hi.phase with rfl | hcr
    · exact absurd hk hf.unknown
    · exact .inr (htick hcr)
  miss := fun _ _ _ => trivial
  target := fun {s c pre h post} hi hsplit _ ho => by
    have hh : h ∈ hints := hsplit ▸ List.mem_append_right _ List.mem_cons_self
    rcases hi.phase with rfl | hcr
    · rw [hf.free h hh] at ho
      cases ho
    · exact (hcr.owner hf hh ho).1
  create := fun {s n} heq hi _ hfree => by
    cases heq
    rcases hi.phase with rfl | hcr
    · obtain ⟨hok, hg⟩ := hf.ok.created hfree hf.nodup name
      have hcr : Created rt t hints names s (s.created rt t name hints) := ⟨name, hn, Same.refl _⟩
      exact ⟨⟨hok, hg, .inr hcr⟩, ⟨hg, fun _ => hcr⟩, hcr⟩
    · obtain ⟨h, hin, hh⟩ := hf.first
      have ho := hfree h hh
      rw [hcr.ownerOf hf hh, if_pos hin] at ho
      cases ho
  refuse := fun heq => nomatch heq
  stays := fun h hr => hr.2 h

/-- Where a call of such a race ends. -/
theorem Creating.ended (hi : Creating rt K t hints names s₀ s) (hf : Fresh rt K t hints s₀)
    {r : Except LinkingError LinkingOutcome} {name : Option (Str 0 128)}
    (hr : Resolved t hints (.ok name) (fun _ => True) (fun c => c = newId rt s₀)
      (Created rt t hints names s₀) r s) :
    Created rt t hints names s₀ s ∧
      ((∃ e, r = .error e) ↔ ∃ h ∈ hints, ¬ Fits h.value) ∧
      ∀ out, r = .ok out → out.customerId = newId rt s₀ ∧ AllLinked s t.1 (newId rt s₀) hints := by
  obtain ⟨h₁, hin₁, hh₁⟩ := hf.first
  cases r with
  | ok out =>
    obtain ⟨hall, hT⟩ := hr
    have hcr : Created rt t hints names s₀ s := by
      rcases hi.phase with rfl | hcr
      · have ho := hall h₁ hh₁
        rw [hf.free h₁ hh₁] at ho
        cases ho
      · exact hcr
    have hid : out.customerId = newId rt s₀ := (hcr.owner hf hh₁ (hall h₁ hh₁)).1
    refine ⟨hcr, ⟨(fun ⟨e, he⟩ => nomatch he), fun ⟨h, hh, hlong⟩ => ?_⟩, fun out' hout => ?_⟩
    · exact absurd (fits_of_mem_fitting (hcr.owner hf hh (hall h hh)).2) hlong
    · cases hout
      exact ⟨hid, hid ▸ hall⟩
  | error e =>
    have hboth : Created rt t hints names s₀ s ∧ ∃ h ∈ hints, ¬ Fits h.value := by
      rcases hr with ⟨c, rfl, pre, h, post, hsplit, hpre, hbad⟩ | hC | ⟨⟨e', he'⟩, -⟩
      · have hh : h ∈ hints := hsplit ▸ List.mem_append_right _ List.mem_cons_self
        rcases hi.phase with rfl | hcr
        · -- nothing is linked, so the call is stuck at the first hint, which fits
          have hnil : pre = [] := List.eq_nil_iff_forall_not_mem.mpr fun x hx => by
            have ho := hpre x hx
            rw [hf.free x (hsplit ▸ List.mem_append_left _ hx)] at ho
            cases ho
          rcases hbad with ⟨c', ho, -⟩ | hlong
          · rw [hf.free h hh] at ho
            cases ho
          · subst hnil
            unfold fitting at hin₁
            rw [hsplit, List.nil_append,
              List.takeWhile_cons_of_neg (by simpa using hlong)] at hin₁
            cases hin₁
        · rcases hbad with ⟨c', ho, hne⟩ | hlong
          · exact absurd (hcr.owner hf hh ho).1 hne
          · exact ⟨hcr, h, hh, hlong⟩
      · exact hC
      · cases he'
    exact ⟨hboth.1, ⟨fun _ => hboth.2, fun _ => ⟨e, rfl⟩⟩, fun out hout => nomatch hout⟩

end Creating

/-! ## Who creates -/

/-- The number of stored customers. -/
def count (s : InMemoryCustomerRepository) : Nat := s.customers.entries.length

theorem count_grows {s u : InMemoryCustomerRepository} (h : Grows s u) : count s ≤ count u :=
  Dict.length_le h.customers

theorem count_created {rt : Runtime} {K : IdentityKey → Prop} {t : Str 1 64}
    {s : InMemoryCustomerRepository} (hs : RepoOn rt K s) (hints : List IdentityHint)
    (name : Option (Str 0 128)) :
    count (s.created rt t name hints) = count s + 1 := by
  unfold count
  rw [created_customers]
  refine Dict.length_set_new _ ?_
  cases hx : s.customers.get? (t.1, (newCustomer rt t name s).id) with
  | none => rfl
  | some x =>
    obtain ⟨n, hn, heq⟩ := hs.customerDrawn _ _ x hx
    exact absurd heq (drawn_fresh hn)

section Pays

variable {rt : Runtime} {K : IdentityKey → Prop}

/-- The store gets larger. -/
def Adds (s u : InMemoryCustomerRepository) : Prop := count s < count u

theorem attach_returns {c t : String} {hints : List IdentityHint} :
    (attachNewIdentities rt c t hints).Returns (RepoOn rt K) fun _ => True := by
  induction hints with
  | nil => exact fun a _ h => h trivial
  | cons h hints ih =>
    unfold attachNewIdentities
    apply Prog.Pays.atom_bind
    intro s existing _ _
    cases existing with
    | none =>
      exact Prog.Pays.atom_bind fun u row _ _ => Prog.Pays.bind ih fun _ _ a _ h => h trivial
    | some owner =>
      simp only
      split
      · intro a ha
        cases ha
      · exact ih

/-- A match reports no creation. -/
theorem matchHints_returns {t : String} {hints todo : List IdentityHint} :
    (matchHints rt t hints todo).Returns (RepoOn rt K) fun found =>
      ∀ out ∈ found, out.customerCreated = false := by
  induction todo with
  | nil =>
    rintro a ha hno
    cases ha
    exact hno fun out hout => nomatch hout
  | cons h todo ih =>
    unfold matchHints
    apply Prog.Pays.atom_bind
    intro s found _ _
    cases found with
    | some owner =>
      apply Prog.Pays.bind attach_returns
      intro added _ a ha hno
      cases ha
      exact hno fun out hout => by cases hout; rfl
    | none => exact ih

/-- A call that returns a match. -/
theorem matched_pays {out : LinkingOutcome} (hno : out.customerCreated = false) :
    Prog.Pays (ε := LinkingError) (RepoOn rt K) Adds (fun out => out.customerCreated = true)
      (pure out) := by
  intro a ha hcreated
  cases ha
  rw [hno] at hcreated
  cases hcreated

/-- A call that reports a creation has made the store larger. -/
theorem resolve_pays {request : IngestionRequest} (hid : request.customerId = none) :
    (resolveCustomer rt request).Pays (RepoOn rt K) Adds fun out => out.customerCreated = true := by
  have hcan : ∀ h ∈ request.hints rt, Canonical rt.caseData h.kind h.value :=
    extractIdentityHints_canonical request.payload
  unfold resolveCustomer
  rw [hid]
  apply Prog.Pays.bind matchHints_returns
  intro found hfound
  cases found with
  | some out => exact matched_pays (hfound out rfl)
  | none =>
    apply Prog.Pays.attempt_bind
    intro s hs
    by_cases hfree : ∀ h ∈ request.hints rt, s.ownerOf request.tenantId.1 h = none
    · by_cases hfits : NameFits request.payload
      · left
        obtain ⟨name, hname⟩ := hfits.check
        have hrun := createCustomer_free hcan hfree hname
        unfold Adds
        rw [hrun, count_created hs]
        exact Nat.lt_succ_self _
      · right
        obtain ⟨e, he⟩ := check_of_not_nameFits hfits
        have hrun := createCustomer_unnamed hcan hfree he
        rw [hrun]
        exact fun a ha => nomatch ha
    · right
      obtain ⟨x, hx, howned⟩ : ∃ h ∈ request.hints rt, s.ownerOf request.tenantId.1 h ≠ none := by
        push Not at hfree
        exact hfree
      obtain ⟨e, he, hrun⟩ := createCustomer_owned hcan ⟨x, hx, howned⟩
        (extractDisplayName request.payload)
      rw [hrun]
      simp only [he, ↓reduceIte]
      apply Prog.Pays.bind matchHints_returns
      intro found hfound
      cases found with
      | some out => exact matched_pays (hfound out rfl)
      | none => exact fun a ha => nomatch ha

end Pays

/-! ## The race -/

section Race

variable {ι : Type} [DecidableEq ι] {rt : Runtime} {K : IdentityKey → Prop}
  {s₀ : InMemoryCustomerRepository} {t : Str 1 64} {hints : List IdentityHint}
  {requests : ι → IngestionRequest}

/-- Calls of the linker at the same time. -/
def racers (rt : Runtime) (requests : ι → IngestionRequest) (s₀ : InMemoryCustomerRepository) :
    Pool ι LinkingError InMemoryCustomerRepository LinkingOutcome :=
  ⟨fun i => resolveCustomer rt (requests i), s₀⟩

/-- At a moment of a race for customer `c`: no call has raised, the calls that have returned have
returned `c` with all hints, at most one of them has created it, and no other customer is new. -/
structure Converges (t : Str 1 64) (c : String) (hints : List IdentityHint)
    (s₀ : InMemoryCustomerRepository)
    (race : Pool ι LinkingError InMemoryCustomerRepository LinkingOutcome) : Prop where
  returns : ∀ i r, race.Done i r → ∃ out, r = .ok out ∧ out.customerId = c ∧
    AllLinked race.state t.1 c hints
  one : ∀ i j a b, race.Done i (.ok a) → race.Done j (.ok b) → a.customerCreated = true →
    b.customerCreated = true → i = j
  customers : ∀ k x, race.state.customers.get? k = some x →
    s₀.customers.get? k = some x ∨ k = (t.1, c)

variable (ht : ∀ i, (requests i).tenantId = t) (hh : ∀ i, (requests i).hints rt = hints)
  (hid : ∀ i, (requests i).customerId = none) (hs : RepoOn rt K s₀)
  (hK : ∀ h ∈ hints, K (t.1, h.kind, h.value)) (hfit : ∀ h ∈ hints, Fits h.value)

include ht hh hid hs hfit

section

include hK

/-- A race in which a hint is known from the start. -/
theorem known_converges {c : String} (hnd : hints.Nodup)
    (hlead : hints.findSome? (s₀.ownerOf t.1) = some c)
    (hone : ∀ h ∈ hints, ∀ c', s₀.ownerOf t.1 h = some c' → c' = c) (schedule : List ι) :
    Converges t c hints s₀ ((racers rt requests s₀).exec schedule) ∧
      RepoOn rt K ((racers rt requests s₀).exec schedule).state := by
  have hi : Attaching rt K t c hints s₀ s₀ := Attaching.start hs
  have hsafe : ∀ i, Safe (growing ι (Attaching rt K t c hints s₀)) i (ResolvedFor t hints c False)
      ((racers rt requests s₀).threads i) s₀ := fun i => by
    have hleads : Leads rt s₀ (requests i) c := by
      unfold Leads
      rw [hid i, ht i, hh i]
      exact hlead
    have h := leads_safe (i := i) hs (by rw [ht i, hh i]; exact hK) hleads
      (by rw [ht i, hh i]; exact hi)
    rw [ht i, hh i] at h
    exact h
  have hend := (Pool.sound hi hsafe schedule).1
  have hcust : ((racers rt requests s₀).exec schedule).state.customers = s₀.customers := by
    obtain ⟨pre, rest, -, hsame, -⟩ := hend.progress
    rw [hsame.customers, linkAll_customers]
  refine ⟨⟨fun i r hd => ?_, fun i j a b hda hdb ha hb => ?_, fun k x hx => ?_⟩, hend.ok⟩
  · have hr := Pool.sound_done hi hsafe hd
    cases r with
    | ok out => exact ⟨out, rfl, hr⟩
    | error e =>
      obtain ⟨h, hmem, hno⟩ := (hend.stuck hs hK hnd (hr.resolve_right id)).2
      refine absurd ?_ hno
      cases ho : s₀.ownerOf t.1 h with
      | none => exact .inr ⟨ho, hfit h hmem⟩
      | some c' => exact .inl (by rw [ho, hone h hmem c' ho])
  · refine Pool.one_payer (P := growing ι (Attaching rt K t c hints s₀))
      (c := racers rt requests s₀) count (fun _ h => h.ok)
      (fun _ _ h => h) (fun _ _ _ _ h => count_grows h) hi hsafe (fun i => resolve_pays (hid i)) ?_
      hda hdb ha hb
    unfold count
    rw [hcust]
    exact Nat.le_succ _
  · rw [hcust] at hx
    exact .inl hx

end

/-- A race in which no hint is known. -/
theorem new_converges (hname : ∀ i, NameFits (requests i).payload) (hnd : hints.Nodup)
    (hne : hints ≠ []) (hfree : ∀ h ∈ hints, s₀.ownerOf t.1 h = none) (schedule : List ι) :
    Converges t (newId rt s₀) hints s₀ ((racers rt requests s₀).exec schedule) ∧
      RepoOn rt K ((racers rt requests s₀).exec schedule).state := by
  have hf : Fresh rt K t hints s₀ := by
    obtain ⟨h, hmem⟩ := List.exists_mem_of_ne_nil _ hne
    exact ⟨hs, hnd, hfree, h, by rw [fitting_eq hfit]; exact hmem, hmem⟩
  have hi : Creating rt K t hints (fun _ => True) s₀ s₀ := ⟨hs, Grows.refl s₀, .inl rfl⟩
  have hsafe : ∀ i, ∃ name, Safe (creating ι rt K t hints (fun _ => True) s₀) i
      (Resolved t hints (.ok name) (fun _ => True) (fun c => c = newId rt s₀)
        (Created rt t hints (fun _ => True) s₀))
      ((racers rt requests s₀).threads i) s₀ := fun i => by
    obtain ⟨name, hname⟩ := (hname i).check
    have A : Allows (creating ι rt K t hints (fun _ => True) s₀) i rt t hints (.ok name)
        (fun _ => True) (fun c => c = newId rt s₀) (Created rt t hints (fun _ => True) s₀) :=
      creating_allows i hf trivial
    have hhints : extractIdentityHints rt.caseData (requests i).payload = hints := hh i
    have h : Safe _ i _ (resolveCustomer rt (requests i)) s₀ :=
      resolve_safe (by rw [ht i, hhints]; exact A) hname (hid i) hi
    rw [ht i, hhints] at h
    exact ⟨name, h⟩
  choose names hsafe using hsafe
  have hend := (Pool.sound hi hsafe schedule).1
  have hcust : ((racers rt requests s₀).exec schedule).state.customers = s₀.customers ∨
      ∃ name, ((racers rt requests s₀).exec schedule).state.customers =
        (s₀.created rt t name hints).customers := by
    rcases hend.phase with heq | ⟨name, -, hsame⟩
    · exact .inl (by rw [heq])
    · exact .inr ⟨name, hsame.customers⟩
  refine ⟨⟨fun i r hd => ?_, fun i j a b hda hdb ha hb => ?_, fun k x hx => ?_⟩, hend.ok⟩
  · have hr := Pool.sound_done hi hsafe hd
    obtain ⟨-, herr, hok⟩ := hend.ended hf hr
    cases r with
    | ok out => exact ⟨out, rfl, hok out rfl⟩
    | error e =>
      obtain ⟨h, hmem, hlong⟩ := herr.mp ⟨e, rfl⟩
      exact absurd (hfit h hmem) hlong
  · refine Pool.one_payer (P := creating ι rt K t hints (fun _ => True) s₀)
      (c := racers rt requests s₀) count (fun _ h => h.ok)
      (fun _ _ h => h) (fun _ _ _ _ h => count_grows h.1) hi hsafe (fun i => resolve_pays (hid i)) ?_
      hda hdb ha hb
    unfold count
    rcases hcust with hc | ⟨name, hc⟩
    · rw [hc]
      exact Nat.le_succ _
    · rw [hc]
      exact Nat.le_of_eq (count_created hs hints name)
  · rcases hcust with hc | ⟨name, hc⟩
    · rw [hc] at hx
      exact .inl hx
    · rw [hc, created_customers, Dict.get?_set] at hx
      split at hx
      · rename_i heq
        exact .inr heq
      · exact .inl hx

end Race

/-- The keys that the hints are indexed by. -/
def hintKeys (t : Str 1 64) (hints : List IdentityHint) (k : IdentityKey) : Prop :=
  ∃ h ∈ hints, k = (t.1, h.kind, h.value)

/-- No two rows are the hint's. -/
def OneRow (s : InMemoryCustomerRepository) (t : String) (h : IdentityHint) : Prop :=
  ∀ id id' row row', s.identities.get? (t, id) = some row → s.identities.get? (t, id') = some row' →
    row.identityKind = h.kind → row.identityValue = h.value → row'.identityKind = h.kind →
    row'.identityValue = h.value → id = id'

/-- A store of the protocol in which no hint has two rows. -/
theorem rawOk_onHints {rt : Runtime} {s : InMemoryCustomerRepository} {t : Str 1 64}
    {hints : List IdentityHint} (hs : RawOk rt s) (hfit : ∀ h ∈ hints, Fits h.value)
    (honce : ∀ h ∈ hints, OneRow s t.1 h) :
    RepoOn rt (hintKeys t hints) s where
  key := hs.key
  customerDrawn := hs.customerDrawn
  identityDrawn := hs.identityDrawn
  owner := hs.owner
  row := hs.row
  fits t' k v c hkey _ := by
    obtain ⟨h, hmem, heq⟩ := hkey
    cases heq
    exact hfit h hmem
  tenant := hs.tenant
  indexed := hs.indexed
  once t' i i' x x' hkey hx hx' hkind hvalue := by
    obtain ⟨h, hmem, heq⟩ := hkey
    obtain ⟨rfl, hk, hv⟩ : t' = t.1 ∧ x.identityKind = h.kind ∧ x.identityValue = h.value := by
      simpa using heq
    exact honce h hmem i i' x x' hx hx' hk hv (hkind.symm.trans hk) (hvalue.symm.trans hv)

/-- In every interleaving of linker calls with the same hints, from a store of the protocol in which
the hints that are known have one customer and no two rows: the calls converge on one customer
(`Converges`), and once a call has returned, each hint is indexed to that customer by exactly one row. -/
theorem linking_race {ι : Type} [DecidableEq ι] {rt : Runtime} {s₀ : InMemoryCustomerRepository}
    (hs : Reachable rt s₀) (t : Str 1 64) (hints : List IdentityHint)
    (requests : ι → IngestionRequest) (ht : ∀ i, (requests i).tenantId = t)
    (hh : ∀ i, (requests i).hints rt = hints) (hid : ∀ i, (requests i).customerId = none)
    (hne : hints ≠ []) (hfit : ∀ h ∈ hints, UpTo 256 h.value)
    (hname : (∀ h ∈ hints, s₀.ownerOf t.1 h = none) → ∀ i, NameFits (requests i).payload)
    (hone : ∀ h ∈ hints, ∀ h' ∈ hints, ∀ c c', s₀.ownerOf t.1 h = some c →
      s₀.ownerOf t.1 h' = some c' → c = c')
    (honce : ∀ h ∈ hints, OneRow s₀ t.1 h) :
    ∃ c, ∀ schedule, Converges t c hints s₀ ((racers rt requests s₀).exec schedule) ∧
      ∀ i out, ((racers rt requests s₀).exec schedule).Done i (.ok out) → ∀ h ∈ hints,
        ((racers rt requests s₀).exec schedule).state.identityIndex.get?
          (t.1, h.kind, h.value) = some c ∧
        ∃ id row, ((racers rt requests s₀).exec schedule).state.identities.get? (t.1, id) = some row ∧
          row.customerId = c ∧ row.identityKind = h.kind ∧ row.identityValue = h.value ∧
          ∀ id' row', ((racers rt requests s₀).exec schedule).state.identities.get? (t.1, id') =
            some row' → row'.identityKind = h.kind → row'.identityValue = h.value → id' = id := by
  have hok₀ : RepoOn rt (hintKeys t hints) s₀ := rawOk_onHints hs.ok hfit honce
  have hkeys : ∀ h ∈ hints, hintKeys t hints (t.1, h.kind, h.value) := fun h hmem => ⟨h, hmem, rfl⟩
  suffices hmain : ∃ c, ∀ schedule,
      Converges t c hints s₀ ((racers rt requests s₀).exec schedule) ∧
        RepoOn rt (hintKeys t hints) ((racers rt requests s₀).exec schedule).state by
    obtain ⟨c, hc⟩ := hmain
    refine ⟨c, fun schedule => ⟨(hc schedule).1, fun i out hd h hmem => ?_⟩⟩
    obtain ⟨hconv, hok⟩ := hc schedule
    obtain ⟨out', -, -, hall⟩ := hconv.returns i _ hd
    have hindex := hall h hmem
    obtain ⟨id, row, hrow, hcid, hkind, hvalue⟩ := hok.row _ _ _ _ hindex
    refine ⟨hindex, id, row, hrow, hcid, hkind, hvalue, fun id' row' hrow' hk hv => ?_⟩
    have hkey : hintKeys t hints (t.1, row'.identityKind, row'.identityValue) := by
      rw [hk, hv]
      exact hkeys h hmem
    exact hok.once _ _ _ _ _ hkey hrow' hrow (hk.trans hkind.symm) (hv.trans hvalue.symm)
  by_cases hempty : Nonempty ι
  · obtain ⟨i⟩ := hempty
    have hnd : hints.Nodup := hh i ▸ extractIdentityHints_nodup (requests i).payload
    cases hlead : hints.findSome? (s₀.ownerOf t.1) with
    | some c =>
      obtain ⟨h, hmem, ho⟩ := List.exists_of_findSome?_eq_some hlead
      exact ⟨c, known_converges ht hh hid hok₀ hkeys hfit hnd hlead
        fun h' hmem' c' ho' => hone h' hmem' h hmem c' c ho' ho⟩
    | none =>
      have hfree := List.findSome?_eq_none_iff.mp hlead
      exact ⟨_, new_converges ht hh hid hok₀ hfit (hname hfree) hnd hne hfree⟩
  · -- no call at all
    refine ⟨"", fun schedule => ?_⟩
    have hnil : schedule = [] := List.eq_nil_iff_forall_not_mem.mpr fun i _ => hempty ⟨i⟩
    subst hnil
    exact ⟨⟨fun i => absurd ⟨i⟩ hempty, fun i => absurd ⟨i⟩ hempty, fun k x hx => .inl hx⟩, hok₀⟩

/-- A payload with an address and a telephone number. -/
def byBoth : IngestionRequest :=
  demoRequest [("from_email", .str " Ann@X "), ("from_phone", .str "+1")]

/-- The address is known, the telephone number is not. -/
theorem linking_race_twoCalls :
    let s₀ := (answer demoRuntime {} (.createCustomer "t1" [(.email, "ann@x")] none)).2
    ∃ c, ∀ schedule, Converges byBoth.tenantId c [⟨.email, "ann@x"⟩, ⟨.phone, "+1"⟩] s₀
      ((racers demoRuntime (fun _ : Fin 2 => byBoth) s₀).exec schedule) := by
  intro s₀
  have hs : Reachable demoRuntime s₀ := Reachable.first _ _
  have hhints : byBoth.hints demoRuntime = [⟨.email, "ann@x"⟩, ⟨.phone, "+1"⟩] := rfl
  have hrows : s₀.identities.entries =
      [(("t1", "idn_a"), ⟨"idn_a", byBoth.tenantId, "cust_", .email, "ann@x"⟩)] := rfl
  have hone : ∀ h : IdentityHint, OneRow s₀ byBoth.tenantId.1 h := by
    intro h id id' row row' hrow hrow' _ _ _ _
    have hmem := Dict.get?_eq_some.mp hrow
    have hmem' := Dict.get?_eq_some.mp hrow'
    rw [hrows] at hmem hmem'
    cases List.mem_singleton.mp hmem
    cases List.mem_singleton.mp hmem'
    rfl
  have howner : ∀ h ∈ [(⟨.email, "ann@x"⟩ : IdentityHint), ⟨.phone, "+1"⟩],
      ∀ c, s₀.ownerOf byBoth.tenantId.1 h = some c → c = "cust_" := by
    intro h hmem c hc
    rcases List.mem_cons.mp hmem with rfl | hmem
    · exact (Option.some.inj hc).symm
    · cases List.mem_singleton.mp hmem
      exact nomatch hc
  obtain ⟨c, hc⟩ := linking_race hs byBoth.tenantId _ (fun _ : Fin 2 => byBoth)
    (fun _ => rfl) (fun _ => hhints) (fun _ => rfl) (List.cons_ne_nil _ _) (by decide)
    (fun _ _ _ hx => nomatch hx)
    (fun h hmem h' hmem' c c' hc hc' => (howner h hmem c hc).trans (howner h' hmem' c' hc').symm)
    (fun h _ => hone h)
  exact ⟨c, fun schedule => (hc schedule).1⟩

def byPhone : IngestionRequest := demoRequest [("from_phone", .str "12")]

/-- A payload with a lone surrogate. -/
def byLone : IngestionRequest :=
  demoRequest [("external_id", .str (String.singleton (Char.ofNat 0x10F800)))]

/-- A creation with a number that is given twice leaves two rows, which a call with the number does not
change; and a call with a lone surrogate for its hint raises. -/
theorem racer_not_race_safe :
    let s₀ := (answer demoRuntime {} (.createCustomer "t1" [(.phone, "12"), (.phone, "12 ")] none)).2
    let race := (racers demoRuntime (fun _ : Fin 1 => byPhone) s₀).exec [0]
    Reachable demoRuntime s₀ ∧ (∃ out, race.Done 0 (.ok out)) ∧
      ¬ OneRow race.state "t1" ⟨.phone, "12"⟩ ∧
      ∃ e, ((racers demoRuntime (fun _ : Fin 1 => byLone) {}).exec [0, 0]).Done 0 (.error e) := by
  refine ⟨Reachable.first _ _, ⟨_, rfl⟩, ?_, ⟨_, rfl⟩⟩
  intro hone
  have heq := hone "idn_a" "idn_aa" _ _ rfl rfl rfl rfl rfl rfl
  exact absurd heq (by decide)

end PennyCore
