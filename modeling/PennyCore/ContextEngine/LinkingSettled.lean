import PennyCore.ContextEngine.LinkingRules

/-!
# What an attachment comes to

The hints of a payload are attached to a customer `c`, from a store `s₀` on, by one thread or by
several that attach the same hints to the same customer.

* `Attachable s t c h`: the hint is the customer's, or it is free and not too long. `missing` are the
  free hints before the first that is not attachable, and `attached` is the store with them.
* `Attaching … s₀ s`: `s` is on the way from `s₀` to that store. Every thread of the linker keeps it
  (`attaching_allows`), and one that has returned or raised has come to the end (`Attaching.settled`):
  where the attachments end is settled by `s₀`.
* `Leads`: the request leads to a stored customer, by its customer id or by its hints.
-/

namespace PennyCore

open Lib InMemoryCustomerRepository

/-! ## What can be attached -/

/-- The hint can be the customer's. -/
def Attachable (s : InMemoryCustomerRepository) (t c : String) (h : IdentityHint) : Prop :=
  s.ownerOf t h = some c ∨ s.ownerOf t h = none ∧ Fits h.value

instance (s : InMemoryCustomerRepository) (t c : String) : DecidablePred (Attachable s t c) :=
  fun h => by unfold Attachable; infer_instance

/-- The free hints before the first that can not be the customer's. -/
def missing (s : InMemoryCustomerRepository) (t c : String) (hints : List IdentityHint) :
    List IdentityHint :=
  (hints.takeWhile fun h => Attachable s t c h).filter fun h => s.ownerOf t h = none

/-- The store after the attachments. -/
def attached (rt : Runtime) (t : Str 1 64) (c : String) (hints : List IdentityHint)
    (s : InMemoryCustomerRepository) : InMemoryCustomerRepository :=
  linkAll rt t c s (missing s t.1 c hints)

section Missing

variable {s : InMemoryCustomerRepository} {t c : String} {hints pre post : List IdentityHint}
  {h : IdentityHint}

theorem missing_free (hm : h ∈ missing s t c hints) : s.ownerOf t h = none := by
  simpa using (List.mem_filter.mp hm).2

theorem missing_fits (hm : h ∈ missing s t c hints) : Fits h.value := by
  have hat : Attachable s t c h := by
    simpa using List.mem_takeWhile_imp (List.mem_filter.mp hm).1
  rcases hat with ho | ⟨-, hf⟩
  · rw [missing_free hm] at ho
    cases ho
  · exact hf

theorem missing_nodup (hnd : hints.Nodup) : (missing s t c hints).Nodup :=
  (hnd.sublist (List.takeWhile_sublist _)).filter _

/-- The attachments up to a hint that is free and fits. -/
theorem missing_step (hsplit : hints = pre ++ h :: post) (hpre : ∀ x ∈ pre, Attachable s t c x)
    (hfree : s.ownerOf t h = none) (hfit : Fits h.value) :
    ∃ more, missing s t c hints = pre.filter (fun x => s.ownerOf t x = none) ++ h :: more := by
  have hat : Attachable s t c h := .inr ⟨hfree, hfit⟩
  unfold missing
  rw [hsplit, List.takeWhile_append_of_pos fun x hx => decide_eq_true (hpre x hx),
    List.takeWhile_cons_of_pos (by exact decide_eq_true hat), List.filter_append,
    List.filter_cons_of_pos (by exact decide_eq_true hfree)]
  exact ⟨_, rfl⟩

/-- The attachments up to a hint that is not attachable. -/
theorem missing_stop (hsplit : hints = pre ++ h :: post) (hpre : ∀ x ∈ pre, Attachable s t c x)
    (hbad : ¬ Attachable s t c h) :
    missing s t c hints = pre.filter fun x => s.ownerOf t x = none := by
  unfold missing
  rw [hsplit, List.takeWhile_append_of_pos fun x hx => decide_eq_true (hpre x hx),
    List.takeWhile_cons_of_neg (by simpa using hbad), List.append_nil]

theorem missing_all (hall : ∀ x ∈ hints, Attachable s t c x) :
    missing s t c hints = hints.filter fun x => s.ownerOf t x = none := by
  unfold missing
  rw [List.takeWhile_eq_self_iff.mpr fun x hx => decide_eq_true (hall x hx)]

end Missing

/-- A first part of a list without duplicates that has the members of `a`, and not the next one. -/
theorem prefix_unique {α : Type} {pre rest a b : List α} (hnd : (pre ++ rest).Nodup)
    (heq : pre ++ rest = a ++ b) (hin : ∀ x ∈ a, x ∈ pre) (hout : ∀ x ∈ b.head?, x ∉ pre) :
    pre = a := by
  rcases List.append_eq_append_iff.mp heq with ⟨as, ha, hrest⟩ | ⟨bs, hpre, hb⟩
  · cases as with
    | nil => rw [ha, List.append_nil]
    | cons y as =>
      have hy : y ∈ pre := hin y (by rw [ha]; exact List.mem_append_right _ List.mem_cons_self)
      have hy' : y ∈ rest := by rw [hrest]; exact List.mem_cons_self
      exact absurd rfl ((List.nodup_append.mp hnd).2.2 y hy y hy')
  · cases bs with
    | nil => rw [hpre, List.append_nil]
    | cons y bs =>
      refine absurd ?_ (hout y (by rw [hb]; rfl))
      rw [hpre]
      exact List.mem_append_right _ List.mem_cons_self

/-! ## On the way -/

section Attaching

variable {rt : Runtime} {K : IdentityKey → Prop} {t : Str 1 64} {c : String}
  {hints : List IdentityHint} {s₀ s u : InMemoryCustomerRepository}

/-- Some first part of what is missing is attached. -/
structure Attaching (rt : Runtime) (K : IdentityKey → Prop) (t : Str 1 64) (c : String)
    (hints : List IdentityHint) (s₀ s : InMemoryCustomerRepository) : Prop where
  ok : RepoOn rt K s
  grows : Grows s₀ s
  progress : ∃ pre rest, missing s₀ t.1 c hints = pre ++ rest ∧ Same (linkAll rt t c s₀ pre) s ∧
    (rest ≠ [] → s.drawn = (linkAll rt t c s₀ pre).drawn)

theorem Attaching.start (hs : RepoOn rt K s₀) : Attaching rt K t c hints s₀ s₀ :=
  ⟨hs, Grows.refl s₀, [], _, rfl, Same.refl s₀, fun _ => rfl⟩

/-- Where the hints are linked that are linked already. -/
theorem ownerOf_progress {pre : List IdentityHint} (hsame : Same (linkAll rt t c s₀ pre) s)
    (x : IdentityHint) : s.ownerOf t.1 x = if x ∈ pre then some c else s₀.ownerOf t.1 x := by
  rw [hsame.ownerOf, ownerOf_linkAll]
  simp only [true_and]

section Progress

variable {done rest pre post : List IdentityHint} {h : IdentityHint}
  (hsame : Same (linkAll rt t c s₀ done) s)

include hsame

/-- The free hints of a first part that is linked are attached. -/
theorem done_of_linked (hpre : AllLinked s t.1 c pre) :
    ∀ x ∈ pre.filter (fun x => s₀.ownerOf t.1 x = none), x ∈ done := fun x hx => by
  obtain ⟨hin, hfree⟩ := List.mem_filter.mp hx
  have ho := hpre x hin
  rw [ownerOf_progress hsame] at ho
  split at ho
  · assumption
  · rw [of_decide_eq_true hfree] at ho
    cases ho

theorem not_done_of_free (hfree : s.ownerOf t.1 h = none) : h ∉ done := fun hin => by
  rw [ownerOf_progress hsame, if_pos hin] at hfree
  cases hfree

/-- A hint that stops the linker was not attachable from the start. -/
theorem not_attachable_of_bad (hs₀ : RepoOn rt K s₀) (hK : K (t.1, h.kind, h.value))
    (hbad : (∃ c', s.ownerOf t.1 h = some c' ∧ c' ≠ c) ∨ ¬ Fits h.value) :
    ¬ Attachable s₀ t.1 c h := by
  rcases hbad with ⟨c', ho, hne⟩ | hlong
  · rw [ownerOf_progress hsame] at ho
    split at ho
    · exact absurd (Option.some.inj ho).symm hne
    · rintro (hc | ⟨hn, -⟩)
      · rw [hc] at ho
        exact hne (Option.some.inj ho).symm
      · rw [hn] at ho
        cases ho
  · rintro (hc | ⟨-, hfit⟩)
    · exact hlong (hs₀.fits _ _ _ _ hK hc)
    · exact hlong hfit

variable (hm : missing s₀ t.1 c hints = done ++ rest)

include hm

/-- What is linked could be attached. -/
theorem attachable_of_linked {x : IdentityHint} (hx : s.ownerOf t.1 x = some c) :
    Attachable s₀ t.1 c x := by
  rw [ownerOf_progress hsame] at hx
  split at hx
  · rename_i hin
    have hmem : x ∈ missing s₀ t.1 c hints := by
      rw [hm]
      exact List.mem_append_left _ hin
    exact .inr ⟨missing_free hmem, missing_fits hmem⟩
  · exact .inl hx

/-- At a free hint that fits, after hints that are linked, it is the next one. -/
theorem next_of_free (hnd : hints.Nodup) (hsplit : hints = pre ++ h :: post)
    (hpre : AllLinked s t.1 c pre) (hfree₀ : s₀.ownerOf t.1 h = none)
    (hfree : s.ownerOf t.1 h = none) (hfit : Fits h.value) : ∃ more, rest = h :: more := by
  obtain ⟨more, hmore⟩ := missing_step hsplit
    (fun x hx => attachable_of_linked hsame hm (hpre x hx)) hfree₀ hfit
  have hnd' := missing_nodup (s := s₀) (t := t.1) (c := c) hnd
  rw [hm] at hnd' hmore
  have hdone := prefix_unique hnd' hmore (done_of_linked hsame hpre) fun x hx => by
    rw [← Option.some.inj hx]
    exact not_done_of_free hsame hfree
  rw [hdone] at hmore
  exact ⟨more, List.append_cancel_left hmore⟩

/-- If the free hints of a first part that is linked are all that was missing, it is attached. -/
theorem rest_nil (hnd : hints.Nodup) (hpre : AllLinked s t.1 c pre)
    (hall : missing s₀ t.1 c hints = pre.filter fun x => s₀.ownerOf t.1 x = none) : rest = [] := by
  have hnd' := missing_nodup (s := s₀) (t := t.1) (c := c) hnd
  rw [hm] at hnd' hall
  have heq : done ++ rest = pre.filter (fun x => s₀.ownerOf t.1 x = none) ++ [] := by
    rw [hall, List.append_nil]
  have hdone := prefix_unique hnd' heq (done_of_linked hsame hpre) fun x hx => nomatch hx
  rw [hdone] at heq
  exact List.append_cancel_left heq

/-- At a hint that is not attachable, after hints that are linked, nothing is missing. -/
theorem rest_of_stop (hnd : hints.Nodup) (hsplit : hints = pre ++ h :: post)
    (hpre : AllLinked s t.1 c pre) (hbad : ¬ Attachable s₀ t.1 c h) : rest = [] :=
  rest_nil hsame hm hnd hpre
    (missing_stop hsplit (fun x hx => attachable_of_linked hsame hm (hpre x hx)) hbad)

/-- With all hints linked nothing is missing. -/
theorem rest_of_linked (hnd : hints.Nodup) (hall : AllLinked s t.1 c hints) : rest = [] :=
  rest_nil hsame hm hnd hall
    (missing_all fun x hx => attachable_of_linked hsame hm (hall x hx))

end Progress

/-- The end, of a call that returned. -/
theorem Attaching.settled (A : Attaching rt K t c hints s₀ s) (hnd : hints.Nodup)
    (hall : AllLinked s t.1 c hints) :
    Same (attached rt t c hints s₀) s ∧ ∀ h ∈ hints, Attachable s₀ t.1 c h := by
  obtain ⟨pre, rest, hm, hsame, -⟩ := A.progress
  refine ⟨?_, fun h hh => attachable_of_linked hsame hm (hall h hh)⟩
  unfold attached
  rw [hm, rest_of_linked hsame hm hnd hall, List.append_nil]
  exact hsame

/-- The end, of a call that raised. -/
theorem Attaching.stuck (A : Attaching rt K t c hints s₀ s) (hs₀ : RepoOn rt K s₀)
    (hK : ∀ h ∈ hints, K (t.1, h.kind, h.value)) (hnd : hints.Nodup)
    (hstuck : Stuck s t.1 c hints) :
    Same (attached rt t c hints s₀) s ∧ ∃ h ∈ hints, ¬ Attachable s₀ t.1 c h := by
  obtain ⟨pre, h, post, hsplit, hpre, hbad⟩ := hstuck
  obtain ⟨done, rest, hm, hsame, -⟩ := A.progress
  have hh : h ∈ hints := hsplit ▸ List.mem_append_right _ List.mem_cons_self
  have hnot := not_attachable_of_bad hsame hs₀ (hK h hh) hbad
  refine ⟨?_, h, hh, hnot⟩
  unfold attached
  rw [hm, rest_of_stop hsame hm hnd hsplit hpre hnot, List.append_nil]
  exact hsame

/-- One more attachment. -/
theorem Attaching.add (A : Attaching rt K t c hints s₀ s) (hnd : hints.Nodup)
    {pre post : List IdentityHint} {h : IdentityHint} (hk : s.Known t.1 c)
    (hsplit : hints = pre ++ h :: post) (hpre : AllLinked s t.1 c pre)
    (hfree : s.ownerOf t.1 h = none) (hfit : Fits h.value) :
    Attaching rt K t c hints s₀ (s.link rt t c h) := by
  obtain ⟨done, rest, hm, hsame, hdrawn⟩ := A.progress
  obtain ⟨more, rfl⟩ := next_of_free hsame hm hnd hsplit hpre (A.grows.free hfree) hfree hfit
  have hd := hdrawn (List.cons_ne_nil _ _)
  have hsnoc : linkAll rt t c s₀ (done ++ [h]) = (linkAll rt t c s₀ done).link rt t c h := by
    unfold linkAll
    rw [List.foldl_append]
    rfl
  refine ⟨A.ok.link hk hfree hfit, A.grows.trans (Grows.linked rt c hfree), done ++ [h], more, ?_, ?_,
    fun _ => ?_⟩
  · rw [hm, List.append_assoc]
    rfl
  · rw [hsnoc]
    exact hsame.link hd t c h
  · rw [hsnoc]
    exact congrArg (· + 1) hd

/-- A draw for a hint that turns out too long. -/
theorem Attaching.tick (A : Attaching rt K t c hints s₀ s) (hs₀ : RepoOn rt K s₀)
    (hK : ∀ h ∈ hints, K (t.1, h.kind, h.value)) (hnd : hints.Nodup) {pre post : List IdentityHint}
    {h : IdentityHint} (hsplit : hints = pre ++ h :: post) (hpre : AllLinked s t.1 c pre)
    (hlong : ¬ Fits h.value) : Attaching rt K t c hints s₀ s.tick := by
  obtain ⟨done, rest, hm, hsame, -⟩ := A.progress
  have hh : h ∈ hints := hsplit ▸ List.mem_append_right _ List.mem_cons_self
  have hrest := rest_of_stop hsame hm hnd hsplit hpre
    (not_attachable_of_bad hsame hs₀ (hK h hh) (.inr hlong))
  exact ⟨A.ok.tick, A.grows.trans (Same.tick s).grows, done, rest, hm, hsame.trans (Same.tick s),
    fun hne => absurd hrest hne⟩

/-! ## The linker -/

variable {ι : Type} {i : ι}

theorem attaching_allows (hs₀ : RepoOn rt K s₀) (hK : ∀ h ∈ hints, K (t.1, h.kind, h.value))
    (hnd : hints.Nodup) :
    AllowsAttach (growing ι (Attaching rt K t c hints s₀)) i rt t hints (fun x => x = c) where
  ok := fun h => h.ok.mono fun _ h => h.elim
  grows := fun h => h
  still := fun _ => Grows.refl _
  add := fun hi hc hk hsplit hpre hfree hfit => by
    subst hc
    exact ⟨hi.add hnd hk hsplit hpre hfree hfit, Grows.linked rt _ hfree⟩
  tick := fun hi hc _ hsplit hpre _ hlong => by
    subst hc
    exact ⟨hi.tick hs₀ hK hnd hsplit hpre hlong, (Same.tick _).grows⟩

/-- The hints lead to a customer: that of the first hint that is known. -/
theorem matching_allows (hs₀ : RepoOn rt K s₀) (hK : ∀ h ∈ hints, K (t.1, h.kind, h.value))
    (hnd : hints.Nodup) (hlead : hints.findSome? (s₀.ownerOf t.1) = some c)
    (name : Except ValidationError (Option (Str 0 128))) :
    Allows (growing ι (Attaching rt K t c hints s₀)) i rt t hints name
      (fun h => s₀.ownerOf t.1 h = none) (fun x => x = c) (fun _ => False) where
  toAllowsAttach := attaching_allows hs₀ hK hnd
  miss := fun hi _ hfree => hi.grows.free hfree
  target := fun {s c' pre h post} hi hsplit hpre ho => by
    obtain ⟨done, rest, hm, hsame, -⟩ := hi.progress
    rw [ownerOf_progress hsame] at ho
    split at ho
    · exact (Option.some.inj ho).symm
    · have hfirst : hints.findSome? (s₀.ownerOf t.1) = some c' := by
        rw [hsplit, List.findSome?_append, List.findSome?_eq_none_iff.mpr hpre]
        simp only [List.findSome?_cons, ho, Option.none_or]
      rw [hlead] at hfirst
      exact (Option.some.inj hfirst).symm
  create := fun _ _ hmiss _ => by
    rw [List.findSome?_eq_none_iff.mpr hmiss] at hlead
    cases hlead
  refuse := fun _ _ hmiss _ => by
    rw [List.findSome?_eq_none_iff.mpr hmiss] at hlead
    cases hlead
  stays := fun h _ => h

end Attaching

/-! ## Requests -/

/-- The stored customer that the request names, or that its hints lead to. -/
def Leads (rt : Runtime) (s : InMemoryCustomerRepository) (request : IngestionRequest) (c : String) :
    Prop :=
  match request.customerId with
  | some x => x.1 = c ∧ s.Known request.tenantId.1 c
  | none => (request.hints rt).findSome? (s.ownerOf request.tenantId.1) = some c

section Requests

variable {rt : Runtime} {K : IdentityKey → Prop} {request : IngestionRequest}
  {s₀ s : InMemoryCustomerRepository}
  {c : String} {ι : Type} {i : ι}

theorem Leads.unique {c' : String} (h : Leads rt s request c) (h' : Leads rt s request c') :
    c = c' := by
  unfold Leads at h h'
  cases hid : request.customerId with
  | some x =>
    rw [hid] at h h'
    exact h.1.symm.trans h'.1
  | none =>
    rw [hid] at h h'
    exact Option.some.inj (h.symm.trans h')

/-- A request leads to a customer, or it names one that is not stored, or no hint is known. -/
theorem leads_cases (rt : Runtime) (s : InMemoryCustomerRepository) (request : IngestionRequest) :
    (∃ c, Leads rt s request c) ∨
    (∃ x, request.customerId = some x ∧ ¬ s.Known request.tenantId.1 x.1) ∨
    (request.customerId = none ∧ ∀ h ∈ request.hints rt, s.ownerOf request.tenantId.1 h = none) := by
  unfold Leads
  cases hid : request.customerId with
  | some x =>
    by_cases hk : s.Known request.tenantId.1 x.1
    · exact .inl ⟨x.1, rfl, hk⟩
    · exact .inr (.inl ⟨x, rfl, hk⟩)
  | none =>
    cases hf : (request.hints rt).findSome? (s.ownerOf request.tenantId.1) with
    | some c => exact .inl ⟨c, rfl⟩
    | none => exact .inr (.inr ⟨rfl, List.findSome?_eq_none_iff.mp hf⟩)

/-- A request that leads to `c`, among threads that attach its hints to `c`. -/
theorem leads_safe (hs₀ : RepoOn rt K s₀)
    (hK : ∀ h ∈ request.hints rt, K (request.tenantId.1, h.kind, h.value))
    (hlead : Leads rt s₀ request c)
    (hi : Attaching rt K request.tenantId c (request.hints rt) s₀ s) :
    Safe (growing ι (Attaching rt K request.tenantId c (request.hints rt) s₀)) i
      (ResolvedFor request.tenantId (request.hints rt) c False) (resolveCustomer rt request) s := by
  have hnd : (request.hints rt).Nodup := extractIdentityHints_nodup request.payload
  unfold Leads at hlead
  cases hid : request.customerId with
  | some x =>
    rw [hid] at hlead
    obtain ⟨rfl, hk⟩ := hlead
    exact resolve_explicit_safe (attaching_allows hs₀ hK hnd) hid rfl
      fun u hu hno => hno (hu.grows.known hk)
  | none =>
    rw [hid] at hlead
    have A := matching_allows (i := i) hs₀ hK hnd hlead
      (Str.checkOpt 128 "Customer" "display_name" (extractDisplayName request.payload))
    refine Safe.mono (fun r u _ hr => ?_) (resolve_safe A rfl hid hi)
    cases r with
    | ok out =>
      obtain ⟨hall, hc | hno⟩ := hr
      · exact ⟨hc, hc ▸ hall⟩
      · exact hno.elim
    | error e =>
      rcases hr with ⟨c', rfl, hstuck⟩ | ⟨hno, -⟩ | ⟨-, hmiss⟩
      · exact .inl hstuck
      · exact hno.elim
      · rw [List.findSome?_eq_none_iff.mpr hmiss] at hlead
        cases hlead

/-- Where such a request ends, and when it raises. -/
theorem Attaching.ended (A : Attaching rt K request.tenantId c (request.hints rt) s₀ s)
    (hs₀ : RepoOn rt K s₀)
    (hK : ∀ h ∈ request.hints rt, K (request.tenantId.1, h.kind, h.value))
    {r : Except LinkingError LinkingOutcome}
    (hr : ResolvedFor request.tenantId (request.hints rt) c False r s) :
    Same (attached rt request.tenantId c (request.hints rt) s₀) s ∧
      ((∃ e, r = .error e) ↔ ∃ h ∈ request.hints rt, ¬ Attachable s₀ request.tenantId.1 c h) := by
  have hnd : (request.hints rt).Nodup := extractIdentityHints_nodup request.payload
  cases r with
  | ok out =>
    obtain ⟨hsame, hall⟩ := A.settled hnd hr.2
    exact ⟨hsame, (fun ⟨e, he⟩ => nomatch he), fun ⟨h, hh, hno⟩ => absurd (hall h hh) hno⟩
  | error e =>
    obtain ⟨hsame, hbad⟩ := A.stuck hs₀ hK hnd (hr.resolve_right id)
    exact ⟨hsame, fun _ => hbad, fun _ => ⟨e, rfl⟩⟩

/-- A request that names a customer who is not stored, among threads that write nothing. -/
theorem unknown_safe {x : Str 0 64} (hid : request.customerId = some x)
    (hno : ¬ s₀.Known request.tenantId.1 x.1) :
    Safe (growing ι fun s => RepoOk rt s ∧ Same s₀ s) i (fun _ _ => True)
      (resolveCustomer rt request) s := by
  have hnot : ∀ {u : InMemoryCustomerRepository}, Same s₀ u → ¬ u.Known request.tenantId.1 x.1 :=
    fun hu hk => hno (hu.symm.grows.known hk)
  have A : AllowsAttach (growing ι fun s => RepoOk rt s ∧ Same s₀ s) i rt request.tenantId
      (request.hints rt) (fun c => c = x.1) :=
    { ok := fun hu => hu.1.mono fun _ h => h.elim
      grows := fun h => h
      still := fun _ => Grows.refl _
      add := fun hu hc hk _ _ _ _ => absurd (hc ▸ hk) (hnot hu.2)
      tick := fun hu hc hk _ _ _ _ => absurd (hc ▸ hk) (hnot hu.2) }
  exact Safe.mono (fun _ _ _ _ => trivial)
    (resolve_explicit_safe (N := True) A hid rfl fun _ _ _ => trivial)

end Requests
end PennyCore
