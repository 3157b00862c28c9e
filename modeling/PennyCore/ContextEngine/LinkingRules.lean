import PennyCore.ContextEngine.CustomerInvariant

/-!
# The linker among other threads

What `resolveCustomer` comes to while other threads use the repository, by the rules for `Safe`.

* `AllowsAttach P i …`, `Allows P i …`: thread `i` may attach hints and create a customer under the
  protocol `P`, in the states in which the linker does. `Miss h` is what it knows of a hint that it
  did not find, `T c` of a customer that it attaches to, `C s` of a store after its own creation.
* `AllLinked s t c hints`: every hint is `c`'s. `Stuck s t c hints`: a hint of another customer, or
  one that the identity contract refuses, comes after hints that are all `c`'s.
* `attach_safe`, `matchHints_safe`, `createOrMatch_safe`, `resolve_safe`: the linker keeps the
  protocol. A call that returns has all hints linked to its customer; one that raises is stuck, or
  its own creation was cut short or refused, or the customer that it was given is unknown.
-/

namespace PennyCore

open Lib InMemoryCustomerRepository

/-- The protocol of threads that keep `J` and change nothing that is stored. -/
def growing (ι : Type) (J : InMemoryCustomerRepository → Prop) :
    Protocol ι InMemoryCustomerRepository where
  inv := J
  rely := fun _ => Grows
  guar := fun _ => Grows
  refl := fun _ => Grows.refl
  trans := fun _ => Grows.trans
  compat := fun _ _ h => h

/-- Every hint is the customer's. -/
def AllLinked (s : InMemoryCustomerRepository) (t c : String) (hints : List IdentityHint) : Prop :=
  ∀ h ∈ hints, s.ownerOf t h = some c

/-- The hints up to one that can not be the customer's are the customer's. -/
def Stuck (s : InMemoryCustomerRepository) (t c : String) (hints : List IdentityHint) : Prop :=
  ∃ pre h post, hints = pre ++ h :: post ∧ AllLinked s t c pre ∧
    ((∃ c', s.ownerOf t h = some c' ∧ c' ≠ c) ∨ ¬ Fits h.value)

theorem AllLinked.grows {s u : InMemoryCustomerRepository} {t c : String}
    {hints : List IdentityHint} (h : AllLinked s t c hints) (hg : Grows s u) :
    AllLinked u t c hints := fun x hx => hg.ownerOf (h x hx)

theorem Stuck.grows {s u : InMemoryCustomerRepository} {t c : String}
    {hints : List IdentityHint} (h : Stuck s t c hints) (hg : Grows s u) : Stuck u t c hints := by
  obtain ⟨pre, x, post, heq, hpre, hx⟩ := h
  refine ⟨pre, x, post, heq, hpre.grows hg, hx.imp_left ?_⟩
  rintro ⟨c', hc', hne⟩
  exact ⟨c', hg.ownerOf hc', hne⟩

theorem AllLinked.snoc {s : InMemoryCustomerRepository} {t c : String} {pre : List IdentityHint}
    {h : IdentityHint} (hpre : AllLinked s t c pre) (hh : s.ownerOf t h = some c) :
    AllLinked s t c (pre ++ [h]) := fun x hx => by
  rcases List.mem_append.mp hx with hx | hx
  · exact hpre x hx
  · rw [List.mem_singleton.mp hx]
    exact hh

/-- Thread `i` may attach the hints under `P`, where the linker does: in their order, to a customer
of which it knows `T`. -/
structure AllowsAttach {ι : Type} (P : Protocol ι InMemoryCustomerRepository) (i : ι) (rt : Runtime)
    (t : Str 1 64) (hints : List IdentityHint) (T : String → Prop) : Prop where
  ok : ∀ {s}, P.inv s → RepoOn rt (fun _ => False) s
  grows : ∀ {s u}, P.rely i s u → Grows s u
  still : ∀ {s}, P.inv s → P.guar i s s
  add : ∀ {s c pre h post}, P.inv s → T c → s.Known t.1 c → hints = pre ++ h :: post →
    AllLinked s t.1 c pre → s.ownerOf t.1 h = none → Fits h.value →
    P.inv (s.link rt t c h) ∧ P.guar i s (s.link rt t c h)
  tick : ∀ {s c pre h post}, P.inv s → T c → s.Known t.1 c → hints = pre ++ h :: post →
    AllLinked s t.1 c pre → s.ownerOf t.1 h = none → ¬ Fits h.value →
    P.inv s.tick ∧ P.guar i s s.tick

/-- And it may create a customer where no hint is known (module doc); `name` is what the customer
contract makes of the display name. -/
structure Allows {ι : Type} (P : Protocol ι InMemoryCustomerRepository) (i : ι) (rt : Runtime)
    (t : Str 1 64) (hints : List IdentityHint)
    (name : Except ValidationError (Option (Str 0 128)))
    (Miss : IdentityHint → Prop) (T : String → Prop) (C : InMemoryCustomerRepository → Prop) : Prop
    extends AllowsAttach P i rt t hints T where
  miss : ∀ {s h}, P.inv s → h ∈ hints → s.ownerOf t.1 h = none → Miss h
  target : ∀ {s c pre h post}, P.inv s → hints = pre ++ h :: post → (∀ x ∈ pre, Miss x) →
    s.ownerOf t.1 h = some c → T c
  create : ∀ {s n}, name = .ok n → P.inv s → (∀ h ∈ hints, Miss h) →
    (∀ h ∈ hints, s.ownerOf t.1 h = none) →
    P.inv (s.created rt t n hints) ∧ P.guar i s (s.created rt t n hints) ∧
      C (s.created rt t n hints)
  refuse : ∀ {s e}, name = .error e → P.inv s → (∀ h ∈ hints, Miss h) →
    (∀ h ∈ hints, s.ownerOf t.1 h = none) → P.inv s.tick ∧ P.guar i s s.tick
  stays : ∀ {s u}, C s → P.rely i s u → C u

section Rules

variable {ι : Type} {P : Protocol ι InMemoryCustomerRepository} {i : ι} {rt : Runtime} {t : Str 1 64}
  {hints : List IdentityHint} {name : Except ValidationError (Option (Str 0 128))}
  {Miss : IdentityHint → Prop} {T : String → Prop} {C : InMemoryCustomerRepository → Prop}
  {s : InMemoryCustomerRepository}
  {c : String}

/-- After an attachment to `c`. -/
def Attached (t : Str 1 64) (hints : List IdentityHint) (c : String)
    (r : Except LinkingError (List IdentityHint)) (s : InMemoryCustomerRepository) : Prop :=
  match r with
  | .ok _ => AllLinked s t.1 c hints
  | .error _ => Stuck s t.1 c hints

/-- The linker attaches the hints `rest` that it does not skip; those before and those that it skips
are the customer's. -/
theorem attach_safe (A : AllowsAttach P i rt t hints T)
    (hcan : ∀ h ∈ hints, Canonical rt.caseData h.kind h.value) (hT : T c)
    (keep : IdentityHint → Bool) (pre rest : List IdentityHint) (hsplit : hints = pre ++ rest)
    (hk : s.Known t.1 c) (hpre : AllLinked s t.1 c pre)
    (hskip : ∀ x ∈ rest, keep x = false → s.ownerOf t.1 x = some c) :
    Safe P i (Attached t hints c) (attachNewIdentities rt c t.1 (rest.filter keep)) s := by
  induction rest generalizing pre s with
  | nil =>
    rw [List.append_nil] at hsplit
    subst hsplit
    exact Safe.done fun u hu _ => hpre.grows (A.grows hu)
  | cons h rest ih =>
    have hsplit' : hints = (pre ++ [h]) ++ rest := by rw [hsplit, List.append_assoc]; rfl
    -- from a later state in which the hint is the customer's
    have hnext : ∀ u, Grows s u → u.ownerOf t.1 h = some c →
        Safe P i (Attached t hints c) (attachNewIdentities rt c t.1 (rest.filter keep)) u :=
      fun u hg hu => ih (pre ++ [h]) hsplit' (hg.known hk) ((hpre.grows hg).snoc hu)
        fun x hx hkx => hg.ownerOf (hskip x (List.mem_cons_of_mem h hx) hkx)
    cases hkeep : keep h with
    | false =>
      rw [List.filter_cons_of_neg (by rw [hkeep]; exact Bool.false_ne_true)]
      exact hnext s (Grows.refl s) (hskip h List.mem_cons_self hkeep)
    | true =>
      have hch : Canonical rt.caseData h.kind h.value := hcan h (by
        rw [hsplit]
        exact List.mem_append_right _ List.mem_cons_self)
      have hstuck : ∀ u, Grows s u → (∃ c', u.ownerOf t.1 h = some c' ∧ c' ≠ c) ∨ ¬ Fits h.value →
          ∀ e v, P.rely i u v → Attached t hints c (.error e) v := fun u hg hbad e v hv =>
        Stuck.grows ⟨pre, h, rest, hsplit, hpre.grows hg, hbad⟩ (A.grows hv)
      rw [List.filter_cons_of_pos hkeep]
      unfold attachNewIdentities
      apply Safe.atom_bind
      intro u hu hiu
      have hgu := A.grows hu
      cases ho : u.ownerOf t.1 h with
      | some c' =>
        obtain ⟨x, hxid, hfind⟩ := find_owned (A.ok hiu) ho
        rw [hfind]
        refine ⟨hiu, A.still hiu, ?_⟩
        simp only [hxid]
        by_cases hne : c' = c
        · rw [if_neg (not_not.mpr hne)]
          exact hnext u hgu (hne ▸ ho)
        · rw [if_pos hne]
          exact Safe.done fun v hv _ => hstuck u hgu (.inl ⟨c', ho, hne⟩) _ v hv
      | none =>
        rw [find_free ho]
        refine ⟨hiu, A.still hiu, ?_⟩
        apply Safe.atom_bind
        intro v hv hiv
        have hgv := hgu.trans (A.grows hv)
        have hprev := hpre.grows hgv
        have hkv := hgv.known hk
        -- another thread may have been faster
        cases hov : v.ownerOf t.1 h with
        | some c' =>
          by_cases hne : c' = c
          · subst hne
            obtain ⟨row, hrun⟩ := addIdentity_again (A.ok hiv) hch hov
            rw [hrun]
            exact ⟨hiv, A.still hiv, Safe.map (Safe.mono (fun r w _ h => by cases r <;> exact h)
              (hnext v hgv hov))⟩
          · rw [addIdentity_other hch hov hne]
            exact ⟨hiv, A.still hiv, Safe.done fun w hw _ =>
              hstuck v hgv (.inl ⟨c', hov, hne⟩) _ w hw⟩
        | none =>
          rw [addIdentity_free hch hkv hov]
          by_cases hfit : Fits h.value
          · rw [if_pos hfit]
            obtain ⟨hinv, hguar⟩ := A.add hiv hT hkv hsplit hprev hov hfit
            have hgl := hgv.trans (Grows.linked rt c hov)
            refine ⟨hinv, hguar, Safe.map (Safe.mono (fun r w _ h => by cases r <;> exact h)
              (hnext _ hgl ?_))⟩
            rw [ownerOf_link, if_pos ⟨rfl, rfl⟩]
          · rw [if_neg hfit]
            obtain ⟨hinv, hguar⟩ := A.tick hiv hT hkv hsplit hprev hov hfit
            exact ⟨hinv, hguar, Safe.done fun w hw _ =>
              hstuck v.tick (hgv.trans (Same.tick v).grows) (.inr hfit) _ w hw⟩

/-- After the priority walk from `s`. -/
def Matched (t : Str 1 64) (hints : List IdentityHint) (Miss : IdentityHint → Prop)
    (T : String → Prop) (s : InMemoryCustomerRepository)
    (r : Except LinkingError (Option LinkingOutcome)) (u : InMemoryCustomerRepository) : Prop :=
  match r with
  | .ok none => ∀ h ∈ hints, Miss h ∧ s.ownerOf t.1 h = none
  | .ok (some out) => T out.customerId ∧ AllLinked u t.1 out.customerId hints
  | .error _ => ∃ c, T c ∧ Stuck u t.1 c hints

theorem matchHints_safe (A : Allows P i rt t hints name Miss T C)
    (hcan : ∀ h ∈ hints, Canonical rt.caseData h.kind h.value) (pre todo : List IdentityHint)
    (hsplit : hints = pre ++ todo) {u : InMemoryCustomerRepository} (hg : Grows s u)
    (hpre : ∀ x ∈ pre, Miss x ∧ s.ownerOf t.1 x = none) :
    Safe P i (Matched t hints Miss T s) (matchHints rt t.1 hints todo) u := by
  induction todo generalizing pre u with
  | nil =>
    rw [List.append_nil] at hsplit
    subst hsplit
    exact Safe.done fun v _ _ => hpre
  | cons h todo ih =>
    have hmem : h ∈ hints := by
      rw [hsplit]
      exact List.mem_append_right _ List.mem_cons_self
    unfold matchHints
    apply Safe.atom_bind
    intro v hv hiv
    have hgv := hg.trans (A.grows hv)
    cases ho : v.ownerOf t.1 h with
    | some c =>
      obtain ⟨x, hxid, hfind⟩ := find_owned (A.ok hiv) ho
      rw [hfind]
      refine ⟨hiv, A.still hiv, ?_⟩
      have hT : T c := A.target hiv hsplit (fun x hx => (hpre x hx).1) ho
      have hattach := attach_safe A.toAllowsAttach hcan hT (fun x => x ≠ h) [] hints rfl
        ((A.ok hiv).owner _ _ _ _ ho) (fun x hx => nomatch hx) fun x _ hx => by
          rw [show x = h by simpa using hx]
          exact ho
      simp only [hxid]
      refine Safe.map (Safe.mono (fun r w _ hr => ?_) hattach)
      cases r with
      | ok added => exact ⟨hT, hr⟩
      | error e => exact ⟨c, hT, hr⟩
    | none =>
      rw [find_free ho]
      refine ⟨hiv, A.still hiv, ?_⟩
      apply ih (pre ++ [h]) (by rw [hsplit, List.append_assoc]; rfl) hgv
      intro x hx
      rcases List.mem_append.mp hx with hx | hx
      · exact hpre x hx
      · rw [List.mem_singleton.mp hx]
        exact ⟨A.miss hiv hmem ho, hgv.free ho⟩

/-- After a call of the linker. -/
def Resolved (t : Str 1 64) (hints : List IdentityHint)
    (name : Except ValidationError (Option (Str 0 128))) (Miss : IdentityHint → Prop)
    (T : String → Prop) (C : InMemoryCustomerRepository → Prop)
    (r : Except LinkingError LinkingOutcome) (s : InMemoryCustomerRepository) : Prop :=
  match r with
  | .ok out => AllLinked s t.1 out.customerId hints ∧ (T out.customerId ∨ C s)
  | .error _ => (∃ c, T c ∧ Stuck s t.1 c hints) ∨ (C s ∧ ∃ h ∈ hints, ¬ Fits h.value) ∨
    (∃ e, name = .error e) ∧ ∀ h ∈ hints, Miss h

theorem Resolved.rely (A : Allows P i rt t hints name Miss T C)
    {r : Except LinkingError LinkingOutcome} {u : InMemoryCustomerRepository}
    (h : Resolved t hints name Miss T C r s) (hr : P.rely i s u) :
    Resolved t hints name Miss T C r u := by
  have hg := A.grows hr
  cases r with
  | ok out => exact ⟨h.1.grows hg, h.2.imp_right fun hC => A.stays hC hr⟩
  | error e =>
    exact h.imp (fun ⟨c, hc, hstuck⟩ => ⟨c, hc, hstuck.grows hg⟩)
      fun hrest => hrest.imp_left fun ⟨hC, hlong⟩ => ⟨A.stays hC hr, hlong⟩

theorem createOrMatch_safe (A : Allows P i rt t hints name Miss T C)
    (hcan : ∀ h ∈ hints, Canonical rt.caseData h.kind h.value) (hsort : Prioritized hints)
    {displayName : Option String}
    (hname : Str.checkOpt 128 "Customer" "display_name" displayName = name)
    (hmiss : ∀ h ∈ hints, Miss h) :
    Safe P i (Resolved t hints name Miss T C) (createOrMatch rt t.1 hints displayName) s := by
  unfold createOrMatch
  apply Safe.attempt_bind
  intro u _ hiu
  by_cases hfree : ∀ h ∈ hints, u.ownerOf t.1 h = none
  · cases hn : name with
    | error e =>
      obtain ⟨hinv, hguar⟩ := A.refuse hn hiu hmiss hfree
      rw [createCustomer_unnamed hcan hfree (hname.trans hn)]
      exact ⟨hinv, hguar, Safe.done fun v _ _ => .inr (.inr ⟨⟨e, rfl⟩, hmiss⟩)⟩
    | ok n =>
      obtain ⟨hinv, hguar, hC⟩ := A.create hn hiu hmiss hfree
      rw [createCustomer_free hcan hfree (hname.trans hn)]
      refine ⟨hinv, hguar, ?_⟩
      by_cases hfit : ∀ h ∈ hints, Fits h.value
      · rw [if_pos hfit]
        refine Safe.done fun v hv _ => hn ▸ Resolved.rely A ?_ hv
        refine ⟨fun h hh => ?_, .inr hC⟩
        rw [ownerOf_created, fitting_eq hfit, if_pos hh]
      · rw [if_neg hfit]
        have hlong : ∃ h ∈ hints, ¬ Fits h.value := by
          push Not at hfit
          exact hfit
        exact Safe.done fun v hv _ => .inr (.inl ⟨A.stays hC hv, hlong⟩)
  · obtain ⟨x, hx, howned⟩ : ∃ h ∈ hints, u.ownerOf t.1 h ≠ none := by
      push Not at hfree
      exact hfree
    obtain ⟨e, he, hrun⟩ := createCustomer_owned hcan ⟨x, hx, howned⟩ displayName
    rw [hrun]
    refine ⟨hiu, A.still hiu, ?_⟩
    simp only [he, ↓reduceIte]
    rw [lookupOrder_eq hsort]
    refine Safe.bind hiu (Safe.mono (fun r v _ hr => ?_)
      (matchHints_safe A hcan [] hints rfl (Grows.refl u) fun x hx => nomatch hx))
    cases r with
    | ok found =>
      cases found with
      | some out => exact Safe.done fun w hw _ => ⟨hr.2.grows (A.grows hw), .inl hr.1⟩
      | none => exact (howned (hr x hx).2).elim
    | error e =>
      obtain ⟨c, hT, hstuck⟩ := hr
      exact Safe.done fun w hw _ => .inl ⟨c, hT, hstuck.grows (A.grows hw)⟩

/-- A request without a customer id. -/
theorem resolve_safe {request : IngestionRequest}
    (A : Allows P i rt request.tenantId (extractIdentityHints rt.caseData request.payload) name
      Miss T C)
    (hname : Str.checkOpt 128 "Customer" "display_name" (extractDisplayName request.payload) = name)
    (hid : request.customerId = none) (hi : P.inv s) :
    Safe P i (Resolved request.tenantId (extractIdentityHints rt.caseData request.payload) name Miss
      T C) (resolveCustomer rt request) s := by
  have hcan := extractIdentityHints_canonical (D := rt.caseData) request.payload
  have hsort := extractIdentityHints_prioritized (D := rt.caseData) request.payload
  unfold resolveCustomer
  rw [hid]
  simp only [lookupOrder_eq hsort]
  refine Safe.bind hi (Safe.mono (fun r v _ hr => ?_)
    (matchHints_safe A hcan [] _ rfl (Grows.refl s) fun x hx => nomatch hx))
  cases r with
  | ok found =>
    cases found with
    | some out => exact Safe.done fun w hw _ => ⟨hr.2.grows (A.grows hw), .inl hr.1⟩
    | none => exact createOrMatch_safe A hcan hsort hname fun h hh => (hr h hh).1
  | error e =>
    obtain ⟨c, hT, hstuck⟩ := hr
    exact Safe.done fun w hw _ => .inl ⟨c, hT, hstuck.grows (A.grows hw)⟩

/-- After a call of the linker with a customer id: the hints are the customer's, or the call is
stuck, or it found no such customer, of which it knows `N`. -/
def ResolvedFor (t : Str 1 64) (hints : List IdentityHint) (c : String) (N : Prop)
    (r : Except LinkingError LinkingOutcome) (s : InMemoryCustomerRepository) : Prop :=
  match r with
  | .ok out => out.customerId = c ∧ AllLinked s t.1 c hints
  | .error _ => Stuck s t.1 c hints ∨ N

/-- A request with a customer id. -/
theorem resolve_explicit_safe {request : IngestionRequest} {cid : Str 0 64} {N : Prop}
    (A : AllowsAttach P i rt request.tenantId (extractIdentityHints rt.caseData request.payload) T)
    (hid : request.customerId = some cid) (hT : T cid.1)
    (hN : ∀ u, P.inv u → ¬ u.Known request.tenantId.1 cid.1 → N) :
    Safe P i (ResolvedFor request.tenantId (extractIdentityHints rt.caseData request.payload) cid.1 N)
      (resolveCustomer rt request) s := by
  have hcan := extractIdentityHints_canonical (D := rt.caseData) request.payload
  unfold resolveCustomer
  rw [hid]
  apply Safe.atom_bind
  intro u _ hiu
  rw [getCustomer_run]
  refine ⟨hiu, A.still hiu, ?_⟩
  cases hg : u.customers.get? (request.tenantId.1, cid.1) with
  | none =>
    refine Safe.done fun v _ _ => .inr (hN u hiu ?_)
    rintro ⟨x, hx⟩
    rw [hg] at hx
    cases hx
  | some x =>
    have hxid := ((A.ok hiu).key _ _ x hg).1
    have hattach := attach_safe A hcan hT (fun _ => true) [] (extractIdentityHints
      rt.caseData request.payload) rfl ⟨x, hg⟩ (fun x hx => nomatch hx) fun x _ hx => nomatch hx
    rw [List.filter_eq_self.mpr fun _ _ => rfl] at hattach
    simp only [hxid]
    refine Safe.map (Safe.mono (fun r w _ hr => ?_) hattach)
    cases r with
    | ok added => exact ⟨rfl, hr⟩
    | error e => exact .inl hr

end Rules
end PennyCore
