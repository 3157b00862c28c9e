import PennyCore.ContextEngine.LinkingAgreement
import PennyCore.ContextEngine.LinkingSettled

/-!
# What a linker call that raises leaves

`create_customer` is documented as atomic, and the Postgres repository rolls the whole batch back. In
memory a call of the linker writes hint after hint, so one that raises may have written before:

* it attaches the hints before the first that it can not attach, which belongs to another customer
  or is refused by the identity contract (`linkStep_leads`);
* a creation stores the customer and the hints before the first that is refused (`linkStep_new`), but
  a display name is refused before anything is written (`linkStep_unnamed`).

`LinkSafe` says of a call that it does not write before it raises, and `linking_atomic` that exactly
these calls are atomic.
-/

namespace PennyCore

open Lib InMemoryCustomerRepository

section Calls

variable {rt : Runtime} {s : InMemoryCustomerRepository} {request : IngestionRequest} {c : String}

/-- A call that leads to a stored customer. -/
theorem linkStep_leads (hs : RepoOk rt s) (hlead : Leads rt s request c) :
    Same (attached rt request.tenantId c (request.hints rt) s) (linkStep rt s request) ∧
      ((∃ e, (resolveAlone rt s request).1 = .error e) ↔
        ∃ h ∈ request.hints rt, ¬ Attachable s request.tenantId.1 c h) := by
  have hi : Attaching rt (fun _ => True) request.tenantId c (request.hints rt) s s :=
    Attaching.start hs
  have hsafe : Safe (growing Unit (Attaching rt (fun _ => True) request.tenantId c
      (request.hints rt) s)) () (ResolvedFor request.tenantId (request.hints rt) c False)
      (resolveCustomer rt request) s := leads_safe hs (fun _ _ => trivial) hlead hi
  obtain ⟨hr, hend⟩ := hsafe.run hi
  exact hend.ended hs (fun _ _ => trivial) hr

/-- A call that names a customer who is not stored. -/
theorem linkStep_unknown (hs : RepoOk rt s) {x : Str 0 64} (hid : request.customerId = some x)
    (hno : ¬ s.Known request.tenantId.1 x.1) : Same s (linkStep rt s request) := by
  have hi : RepoOk rt s ∧ Same s s := ⟨hs, Same.refl s⟩
  have hsafe : Safe (growing Unit fun u => RepoOk rt u ∧ Same s u) () (fun _ _ => True)
      (resolveCustomer rt request) s := unknown_safe hid hno
  exact (hsafe.run hi).2.2

/-- The priority walk over hints that nobody has. -/
theorem matchHints_free {t : String} (hints : List IdentityHint) {todo : List IdentityHint}
    (hfree : ∀ h ∈ todo, s.ownerOf t h = none) :
    (matchHints rt t hints todo).run s = (.ok none, s) := by
  induction todo with
  | nil => rfl
  | cons h todo ih =>
    have hfind : (findCustomerByIdentity t h.kind h.value).run s = (.ok none, s) :=
      find_free (hfree h List.mem_cons_self)
    unfold matchHints
    rw [Prog.run_bind_ok (by exact hfind)]
    exact ih fun x hx => hfree x (List.mem_cons_of_mem h hx)

/-- A call whose hints nobody has goes on to the creation. -/
theorem resolveAlone_free (hid : request.customerId = none)
    (hfree : ∀ h ∈ request.hints rt, s.ownerOf request.tenantId.1 h = none) :
    resolveAlone rt s request = (createOrMatch rt request.tenantId.1 (request.hints rt)
      (extractDisplayName request.payload)).run s := by
  have hsort : lookupOrder (request.hints rt) = request.hints rt :=
    lookupOrder_eq (extractIdentityHints_prioritized request.payload)
  have hwalk : (matchHints rt request.tenantId.1 (request.hints rt)
      (lookupOrder (request.hints rt))).run s = (.ok none, s) := by
    rw [hsort]
    exact matchHints_free _ hfree
  unfold resolveAlone resolveCustomer
  rw [hid]
  exact Prog.run_bind_ok hwalk

/-- A call that would create a customer, but whose display name is refused. -/
theorem linkStep_unnamed (hid : request.customerId = none)
    (hfree : ∀ h ∈ request.hints rt, s.ownerOf request.tenantId.1 h = none)
    (hname : ¬ NameFits request.payload) :
    Same s (linkStep rt s request) ∧ ∃ e, (resolveAlone rt s request).1 = .error e := by
  obtain ⟨e, he⟩ := check_of_not_nameFits hname
  have hcreate := createCustomer_unnamed (extractIdentityHints_canonical request.payload) hfree he
  have hatt : (Prog.attempt (ε := LinkingError) (createCustomer rt request.tenantId.1
      ((request.hints rt).map fun h => (h.kind, h.value))
      (extractDisplayName request.payload))).run s = (.ok (.error _), _) :=
    congrArg (fun p => (Except.ok p.1, p.2)) hcreate
  have hrun : resolveAlone rt s request = (.error (.validation e), s.tick) := by
    rw [resolveAlone_free hid hfree]
    unfold createOrMatch
    rw [Prog.run_bind_ok hatt]
    rfl
  unfold linkStep
  rw [hrun]
  exact ⟨Same.tick s, _, rfl⟩

/-- A call that creates a customer. -/
theorem linkStep_new (hid : request.customerId = none)
    (hfree : ∀ h ∈ request.hints rt, s.ownerOf request.tenantId.1 h = none)
    (hfits : NameFits request.payload) :
    (∃ name, linkStep rt s request = s.created rt request.tenantId name (request.hints rt)) ∧
      ((∃ e, (resolveAlone rt s request).1 = .error e) ↔ ∃ h ∈ request.hints rt, ¬ Fits h.value) := by
  obtain ⟨name, hname⟩ := hfits.check
  have hcan : ∀ h ∈ request.hints rt, Canonical rt.caseData h.kind h.value :=
    extractIdentityHints_canonical request.payload
  have hcreate := createCustomer_free hcan hfree hname
  have hrun := resolveAlone_free hid hfree
  have hboth : (resolveAlone rt s request).2 = s.created rt request.tenantId name (request.hints rt) ∧
      ((∃ e, (resolveAlone rt s request).1 = .error e) ↔
        ¬ ∀ h ∈ request.hints rt, Fits h.value) := by
    rw [hrun]
    unfold createOrMatch
    by_cases hfit : ∀ h ∈ request.hints rt, Fits h.value
    · rw [if_pos hfit] at hcreate
      have hatt : (Prog.attempt (ε := LinkingError) (createCustomer rt request.tenantId.1
          ((request.hints rt).map fun h => (h.kind, h.value))
          (extractDisplayName request.payload))).run s = (.ok (.ok _), _) :=
        congrArg (fun p => (Except.ok p.1, p.2)) hcreate
      rw [Prog.run_bind_ok hatt]
      exact ⟨rfl, (fun ⟨e, he⟩ => nomatch he), fun hno => absurd hfit hno⟩
    · rw [if_neg hfit] at hcreate
      have hatt : (Prog.attempt (ε := LinkingError) (createCustomer rt request.tenantId.1
          ((request.hints rt).map fun h => (h.kind, h.value))
          (extractDisplayName request.payload))).run s = (.ok (.error _), _) :=
        congrArg (fun p => (Except.ok p.1, p.2)) hcreate
      rw [Prog.run_bind_ok hatt]
      exact ⟨rfl, fun _ => hfit, fun _ => ⟨_, rfl⟩⟩
  refine ⟨⟨name, hboth.1⟩, hboth.2.trans ?_⟩
  push Not
  exact Iff.rfl

end Calls

/-! ## Atomicity -/

/-- If the call raises, the store is as before. -/
def LinkAtomic (rt : Runtime) (s : InMemoryCustomerRepository) (request : IngestionRequest) : Prop :=
  ∀ e, (resolveAlone rt s request).1 = .error e → Same s (linkStep rt s request)

/-- A call that leads to a stored customer finds the hints before the first that it can not attach
attached already; one that creates a customer has no hint that is refused. -/
structure LinkSafe (rt : Runtime) (s : InMemoryCustomerRepository) (request : IngestionRequest) :
    Prop where
  leads : ∀ c, Leads rt s request c → ∀ pre h post, request.hints rt = pre ++ h :: post →
    (∀ x ∈ pre, Attachable s request.tenantId.1 c x) → ¬ Attachable s request.tenantId.1 c h →
    AllLinked s request.tenantId.1 c pre
  new : request.customerId = none →
    (∀ h ∈ request.hints rt, s.ownerOf request.tenantId.1 h = none) → NameFits request.payload →
    ∀ h ∈ request.hints rt, Fits h.value

section Atomic

variable {rt : Runtime} {s : InMemoryCustomerRepository} {t : Str 1 64} {c : String}
  {hints : List IdentityHint}

/-- The first hint that can not be attached. -/
theorem exists_first_bad (hbad : ∃ h ∈ hints, ¬ Attachable s t.1 c h) :
    ∃ pre h post, hints = pre ++ h :: post ∧ (∀ x ∈ pre, Attachable s t.1 c x) ∧
      ¬ Attachable s t.1 c h := by
  induction hints with
  | nil => obtain ⟨h, hh, -⟩ := hbad; cases hh
  | cons y hints ih =>
    by_cases hy : Attachable s t.1 c y
    · have hrest : ∃ h ∈ hints, ¬ Attachable s t.1 c h := by
        obtain ⟨h, hh, hno⟩ := hbad
        rcases List.mem_cons.mp hh with rfl | hh
        · exact absurd hy hno
        · exact ⟨h, hh, hno⟩
      obtain ⟨pre, h, post, rfl, hpre, hno⟩ := ih hrest
      refine ⟨y :: pre, h, post, rfl, fun x hx => ?_, hno⟩
      rcases List.mem_cons.mp hx with rfl | hx
      · exact hy
      · exact hpre x hx
    · exact ⟨[], y, hints, rfl, (fun x hx => nomatch hx), hy⟩

/-- The attachments change the store unless there are none. -/
theorem attached_same_iff : Same s (attached rt t c hints s) ↔ missing s t.1 c hints = [] := by
  constructor
  · intro hsame
    apply List.eq_nil_iff_forall_not_mem.mpr
    intro h hh
    have ho := hsame.ownerOf t.1 h
    unfold attached at ho
    rw [ownerOf_linkAll, if_pos ⟨rfl, hh⟩, missing_free hh] at ho
    cases ho
  · intro hm
    unfold attached
    rw [hm]
    exact Same.refl s

/-- Before the first hint that can not be attached, nothing is missing if all are linked. -/
theorem missing_nil_iff {pre post : List IdentityHint} {h : IdentityHint}
    (hsplit : hints = pre ++ h :: post) (hpre : ∀ x ∈ pre, Attachable s t.1 c x)
    (hbad : ¬ Attachable s t.1 c h) : missing s t.1 c hints = [] ↔ AllLinked s t.1 c pre := by
  rw [missing_stop hsplit hpre hbad, List.filter_eq_nil_iff]
  constructor
  · intro hnone x hx
    rcases hpre x hx with ho | ⟨ho, -⟩
    · exact ho
    · exact absurd (decide_eq_true ho) (hnone x hx)
  · intro hall x hx
    rw [hall x hx]
    exact Bool.false_ne_true

/-- A creation changes the store. -/
theorem created_not_same (hs : RepoOk rt s) (name : Option (Str 0 128)) :
    ¬ Same s (s.created rt t name hints) := fun hsame => by
  have hget : (s.created rt t name hints).customers.get? (t.1, (newCustomer rt t name s).id) =
      some (newCustomer rt t name s) := by
    rw [created_customers, Dict.get?_set_self]
  rw [hsame.customers] at hget
  obtain ⟨n, hn, heq⟩ := hs.customerDrawn _ _ _ hget
  exact drawn_fresh hn heq

end Atomic

/-- A call is atomic exactly if it is safe. -/
theorem linkAtomic_iff {rt : Runtime} {s : InMemoryCustomerRepository} (hs : RepoOk rt s)
    (request : IngestionRequest) : LinkAtomic rt s request ↔ LinkSafe rt s request := by
  unfold LinkAtomic
  rcases leads_cases rt s request with ⟨c, hlead⟩ | ⟨x, hid, hno⟩ | ⟨hid, hfree⟩
  · obtain ⟨hsame, herr⟩ := linkStep_leads hs hlead
    constructor
    · refine fun hat => ⟨fun c' hlead' pre h post hsplit hpre hbad => ?_, fun hid hfree => ?_⟩
      · obtain rfl := hlead.unique hlead'
        have hmem : h ∈ request.hints rt := by
          rw [hsplit]
          exact List.mem_append_right _ List.mem_cons_self
        obtain ⟨e, he⟩ := herr.mpr ⟨h, hmem, hbad⟩
        exact (missing_nil_iff hsplit hpre hbad).mp
          (attached_same_iff.mp ((hat e he).trans hsame.symm))
      · unfold Leads at hlead
        rw [hid, List.findSome?_eq_none_iff.mpr hfree] at hlead
        cases hlead
    · intro hsafe e he
      obtain ⟨pre, h, post, hsplit, hpre, hbad⟩ := exists_first_bad (herr.mp ⟨e, he⟩)
      have hall := hsafe.leads c hlead pre h post hsplit hpre hbad
      exact (attached_same_iff.mpr ((missing_nil_iff hsplit hpre hbad).mpr hall)).trans hsame
  · refine ⟨fun _ => ⟨fun c hlead => ?_, fun hid' => ?_⟩, fun _ _ _ => linkStep_unknown hs hid hno⟩
    · unfold Leads at hlead
      rw [hid] at hlead
      exact absurd (hlead.1 ▸ hlead.2) hno
    · rw [hid] at hid'
      cases hid'
  · have hnolead : ∀ c, ¬ Leads rt s request c := fun c hlead => by
      unfold Leads at hlead
      rw [hid, List.findSome?_eq_none_iff.mpr hfree] at hlead
      cases hlead
    by_cases hfits : NameFits request.payload
    · obtain ⟨⟨name, hstep⟩, herr⟩ := linkStep_new hid hfree hfits
      constructor
      · refine fun hat => ⟨fun c hlead => absurd hlead (hnolead c), fun _ _ _ h hh => ?_⟩
        by_contra hlong
        obtain ⟨e, he⟩ := herr.mpr ⟨h, hh, hlong⟩
        have hsame := hat e he
        rw [hstep] at hsame
        exact created_not_same hs name hsame
      · intro hsafe e he
        obtain ⟨h, hh, hlong⟩ := herr.mp ⟨e, he⟩
        exact absurd (hsafe.new hid hfree hfits h hh) hlong
    · refine ⟨fun _ => ⟨fun c hlead => absurd hlead (hnolead c), fun _ _ hyes => absurd hyes hfits⟩,
        fun _ _ _ => (linkStep_unnamed hid hfree hfits).1⟩

/-- In every state that calls of the linker reach, a call is atomic exactly if it is safe, and so is
each call that was made on the way. -/
theorem linking_atomic {rt : Runtime} {h : List (InMemoryCustomerRepository × IngestionRequest)}
    {s : InMemoryCustomerRepository} (hr : LinkRun rt h s) :
    (∀ request, LinkAtomic rt s request ↔ LinkSafe rt s request) ∧
    ((∀ x ∈ h, LinkSafe rt x.1 x.2) → ∀ x ∈ h, LinkAtomic rt x.1 x.2) := by
  refine ⟨linkAtomic_iff (repoOk_run RepoOn.empty hr), fun hsafe x hx => ?_⟩
  exact (linkAtomic_iff (repoOk_calls hr x hx) x.2).mpr (hsafe x hx)

/-- A customer with an e-mail address and one with a phone number. -/
def twoCustomers : List IngestionRequest :=
  [demoRequest [("from_email", .str "a@x")], demoRequest [("from_phone", .str "+1")]]

/-- All of one payload: a new external id, the e-mail address of the one and the phone number of the
other. -/
def mixedUp : IngestionRequest :=
  demoRequest [("external_id", .str "e1"), ("from_email", .str "a@x"), ("from_phone", .str "+1")]

theorem linking_atomic_twoCustomers :
    LinkAtomic demoRuntime (twoCustomers.foldl (linkStep demoRuntime) {}) byEmail ↔
      LinkSafe demoRuntime (twoCustomers.foldl (linkStep demoRuntime) {}) byEmail :=
  have hr : LinkRun demoRuntime (Run.trace (linkStep demoRuntime) {} twoCustomers)
      (twoCustomers.foldl (linkStep demoRuntime) {}) := Run.ofOps ⟨trivial, trivial, trivial⟩
  (linking_atomic hr).1 byEmail

/-- The external id stays attached to the customer with the e-mail address. -/
theorem mixedUp_not_atomic :
    ¬ ∀ h s, LinkRun demoRuntime h s → ∀ request, LinkAtomic demoRuntime s request := by
  intro hall
  have hr : LinkRun demoRuntime (Run.trace (linkStep demoRuntime) {} twoCustomers)
      (twoCustomers.foldl (linkStep demoRuntime) {}) := Run.ofOps ⟨trivial, trivial, trivial⟩
  have hsafe := (linkAtomic_iff (repoOk_run RepoOn.empty hr) mixedUp).mp (hall _ _ hr mixedUp)
  have hhints : mixedUp.hints demoRuntime =
      [⟨.externalId, "e1"⟩, ⟨.email, "a@x"⟩] ++ ⟨.phone, "+1"⟩ :: [] := rfl
  generalize hs : twoCustomers.foldl (linkStep demoRuntime) {} = s at hsafe
  have hid : s.ownerOf "t1" ⟨.externalId, "e1"⟩ = none := by rw [← hs]; rfl
  have hmail : s.ownerOf "t1" ⟨.email, "a@x"⟩ = some "cust_" := by rw [← hs]; rfl
  have hphone : s.ownerOf "t1" ⟨.phone, "+1"⟩ = some "cust_aa" := by rw [← hs]; rfl
  have hlead : Leads demoRuntime s mixedUp "cust_" := by
    show (mixedUp.hints demoRuntime).findSome? (s.ownerOf "t1") = some "cust_"
    rw [hhints]
    simp [hid, hmail]
  have hlinked := hsafe.leads _ hlead _ _ _ hhints (fun x hx => ?_) fun hbad => ?_
  · have hfirst : s.ownerOf "t1" ⟨.externalId, "e1"⟩ = some "cust_" :=
      hlinked _ List.mem_cons_self
    rw [hid] at hfirst
    cases hfirst
  · rcases List.mem_cons.mp hx with rfl | hx
    · exact .inr ⟨hid, by decide⟩
    · rw [List.mem_singleton.mp hx]
      exact .inl hmail
  · rcases hbad with ho | ⟨ho, -⟩
    · exact absurd (hphone.symm.trans ho) (by decide)
    · exact absurd (hphone.symm.trans ho) (by decide)

end PennyCore
