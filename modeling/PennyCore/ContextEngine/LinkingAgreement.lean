import PennyCore.ContextEngine.LinkingRules
import PennyCore.Lib.Run

/-!
# Agreement of the linker

Runs of `resolve_customer` calls, of any tenants and payloads, also of calls that raise.

* `resolve_spec`: what one call keeps: the store's invariant, all that is stored, and for a call that
  returns, that every hint of its payload is the returned customer's.
* `linked_run`: that is still so at the end of the run.
* `resolve_again`: a call whose hints are all a customer's returns it and writes nothing.
* `linking_agreement` is the statement for whole runs.
-/

namespace PennyCore

open Lib InMemoryCustomerRepository

/-- A sequential call of the linker. -/
def resolveAlone (rt : Runtime) (s : InMemoryCustomerRepository) (request : IngestionRequest) :
    Except LinkingError LinkingOutcome × InMemoryCustomerRepository :=
  (resolveCustomer rt request).run s

/-- The store after a call, also after one that raised. -/
def linkStep (rt : Runtime) (s : InMemoryCustomerRepository) (request : IngestionRequest) :
    InMemoryCustomerRepository := (resolveAlone rt s request).2

/-- Runs of calls from the empty store. -/
abbrev LinkRun (rt : Runtime) :
    List (InMemoryCustomerRepository × IngestionRequest) → InMemoryCustomerRepository → Prop :=
  Run (linkStep rt) (fun _ _ => True) {}

/-! ## One call -/

/-- Reached from `s₀` by writes that change nothing stored. -/
def Grown (rt : Runtime) (s₀ s : InMemoryCustomerRepository) : Prop := RepoOk rt s ∧ Grows s₀ s

theorem growing_allows {ι : Type} (i : ι) (rt : Runtime) (s₀ : InMemoryCustomerRepository)
    (t : Str 1 64) {hints : List IdentityHint} (hnd : hints.Nodup)
    (name : Except ValidationError (Option (Str 0 128))) :
    Allows (growing ι (Grown rt s₀)) i rt t hints name (fun _ => True) (fun _ => True)
      (fun _ => True) where
  ok := fun h => h.1.mono fun _ h => h.elim
  grows := fun h => h
  still := fun _ => Grows.refl _
  miss := fun _ _ _ => trivial
  target := fun _ _ _ _ => trivial
  add := fun hi _ hk _ _ hfree hfit =>
    have hg := Grows.linked rt _ hfree
    ⟨⟨hi.1.link hk hfree hfit, hi.2.trans hg⟩, hg⟩
  tick := fun hi _ _ _ _ _ _ =>
    have hg := (Same.tick _).grows
    ⟨⟨hi.1.tick, hi.2.trans hg⟩, hg⟩
  create := fun {_ n} _ hi _ hfree =>
    have ⟨hok, hg⟩ := hi.1.created hfree hnd n
    ⟨⟨hok, hi.2.trans hg⟩, hg, trivial⟩
  refuse := fun _ hi _ _ =>
    have hg := (Same.tick _).grows
    ⟨⟨hi.1.tick, hi.2.trans hg⟩, hg⟩
  stays := fun _ _ => trivial

/-- A call, also among others. -/
theorem linker_safe {ι : Type} (i : ι) {rt : Runtime} {s₀ s : InMemoryCustomerRepository}
    (hs : Grown rt s₀ s) (request : IngestionRequest) :
    Safe (growing ι (Grown rt s₀)) i (fun r u => ∀ out, r = .ok out →
        AllLinked u request.tenantId.1 out.customerId (request.hints rt) ∧
          ∀ c ∈ request.customerId, c.1 = out.customerId) (resolveCustomer rt request) s := by
  have A := growing_allows i rt s₀ request.tenantId (extractIdentityHints_nodup (D := rt.caseData)
    request.payload) (Str.checkOpt 128 "Customer" "display_name" (extractDisplayName request.payload))
  cases hid : request.customerId with
  | none =>
    refine Safe.mono (fun r u _ hr => ?_) (resolve_safe A rfl hid hs)
    rintro out rfl
    exact ⟨hr.1, fun _ h => nomatch h⟩
  | some c =>
    refine Safe.mono (fun r u _ hr => ?_)
      (resolve_explicit_safe (N := True) A.toAllowsAttach hid trivial fun _ _ _ => trivial)
    rintro out rfl
    obtain ⟨hc, hall⟩ := hr
    refine ⟨by rw [hc]; exact hall, fun c' hc' => ?_⟩
    cases hc'
    exact hc.symm

theorem resolve_spec {rt : Runtime} {s : InMemoryCustomerRepository} (hs : RepoOk rt s)
    (request : IngestionRequest) :
    RepoOk rt (linkStep rt s request) ∧ Grows s (linkStep rt s request) ∧
      ∀ out, (resolveAlone rt s request).1 = .ok out →
        AllLinked (linkStep rt s request) request.tenantId.1 out.customerId (request.hints rt) ∧
          ∀ c ∈ request.customerId, c.1 = out.customerId := by
  have hi : Grown rt s s := ⟨hs, Grows.refl s⟩
  obtain ⟨hr, hok, hg⟩ := Safe.run (P := growing Unit (Grown rt s)) hi (linker_safe () hi request)
  exact ⟨hok, hg, hr⟩

/-! ## Repeated calls -/

theorem attach_linked {rt : Runtime} {s : InMemoryCustomerRepository} (hs : RepoOk rt s)
    {t c : String} {hints : List IdentityHint} (h : AllLinked s t c hints) :
    (attachNewIdentities rt c t hints).run s = (.ok [], s) := by
  induction hints with
  | nil => rfl
  | cons x hints ih =>
    obtain ⟨owner, hid, hfind⟩ := find_owned hs (h x List.mem_cons_self)
    unfold attachNewIdentities
    rw [Prog.run_bind_ok (by exact hfind)]
    simp only [hid, ne_eq, not_true_eq_false, ↓reduceIte]
    exact ih fun y hy => h y (List.mem_cons_of_mem x hy)

/-- A call whose hints are all a customer's. -/
theorem resolve_again {rt : Runtime} {s : InMemoryCustomerRepository} (hs : RepoOk rt s)
    {request : IngestionRequest} {c : String}
    (h : AllLinked s request.tenantId.1 c (request.hints rt)) (hne : request.hints rt ≠ [])
    (hid : ∀ x ∈ request.customerId, x.1 = c) :
    ∃ out, resolveAlone rt s request = (.ok out, s) ∧ out.customerId = c ∧
      out.customerCreated = false ∧ out.identitiesAdded = [] := by
  obtain ⟨x, hx⟩ := List.exists_mem_of_ne_nil _ hne
  unfold resolveAlone resolveCustomer
  cases hc : request.customerId with
  | some cid =>
    have hcid := hid cid hc
    obtain ⟨owner, howner⟩ := hs.owner _ _ _ _ (h x hx)
    have hoid := (hs.key _ _ owner howner).1
    have hget : (getCustomer request.tenantId.1 cid.1).run s = (.ok (some owner), s) := by
      rw [getCustomer_run, hcid, howner]
    simp only
    rw [Prog.run_bind_ok (by exact hget)]
    simp only [hoid]
    rw [Prog.run_bind_ok (attach_linked hs h)]
    exact ⟨_, rfl, rfl, rfl, rfl⟩
  | none =>
    have hmatch : ∃ out, (matchHints rt request.tenantId.1 (request.hints rt)
        (request.hints rt)).run s = (.ok (some out), s) ∧ out.customerId = c ∧
        out.customerCreated = false ∧ out.identitiesAdded = [] := by
      -- the first hint decides
      obtain ⟨y, rest, hsplit⟩ := List.exists_cons_of_ne_nil hne
      have hy : y ∈ request.hints rt := by rw [hsplit]; exact List.mem_cons_self
      obtain ⟨owner, hoid, hfind⟩ := find_owned hs (h y hy)
      have hattach : (attachNewIdentities rt c request.tenantId.1
          ((request.hints rt).filter (· ≠ y))).run s = (.ok [], s) :=
        attach_linked hs fun z hz => h z (List.mem_filter.mp hz).1
      generalize request.hints rt = hints at hsplit hattach ⊢
      subst hsplit
      unfold matchHints
      rw [Prog.run_bind_ok (by exact hfind)]
      simp only [hoid]
      rw [Prog.run_bind_ok hattach]
      exact ⟨_, rfl, rfl, rfl, rfl⟩
    obtain ⟨out, hrun, hout⟩ := hmatch
    simp only [lookupOrder_eq (extractIdentityHints_prioritized (D := rt.caseData) request.payload)]
    rw [Prog.run_bind_ok hrun]
    exact ⟨out, rfl, hout⟩

/-! ## Whole runs -/

section Runs

variable {rt : Runtime} {h : List (InMemoryCustomerRepository × IngestionRequest)}
  {s : InMemoryCustomerRepository}

theorem repoOk_run {s₀ : InMemoryCustomerRepository} (hs : RepoOk rt s₀)
    (hr : Run (linkStep rt) (fun _ _ => True) s₀ h s) : RepoOk rt s :=
  hr.holds hs fun _ request hs _ => (resolve_spec hs request).1

theorem grows_run {s₀ : InMemoryCustomerRepository} (hs : RepoOk rt s₀)
    (hr : Run (linkStep rt) (fun _ _ => True) s₀ h s) : Grows s₀ s :=
  hr.relates (I := RepoOk rt) hs (fun _ request hs _ => (resolve_spec hs request).1) Grows.refl
    (fun _ _ _ => Grows.trans) fun _ request hs _ => (resolve_spec hs request).2.1

/-- The states in which the calls of a run are made. -/
theorem repoOk_calls (hr : LinkRun rt h s) : ∀ x ∈ h, RepoOk rt x.1 := by
  refine hr.invariant (I := fun h _ => ∀ x ∈ h, RepoOk rt x.1) (fun x hx => nomatch hx)
    fun h s request hr ih _ x hx => ?_
  rcases List.mem_append.mp hx with hx | hx
  · exact ih x hx
  · rw [List.mem_singleton.mp hx]
    exact repoOk_run RepoOn.empty hr

/-- The hints of every call that returned are its customer's at the end of the run. -/
theorem linked_run (hr : LinkRun rt h s) :
    ∀ x ∈ h, ∀ out, (resolveAlone rt x.1 x.2).1 = .ok out →
      AllLinked s x.2.tenantId.1 out.customerId (x.2.hints rt) ∧
        ∀ c ∈ x.2.customerId, c.1 = out.customerId := by
  refine hr.invariant (I := fun h s => ∀ x ∈ h, ∀ out, (resolveAlone rt x.1 x.2).1 = .ok out →
      AllLinked s x.2.tenantId.1 out.customerId (x.2.hints rt) ∧
        ∀ c ∈ x.2.customerId, c.1 = out.customerId) (fun x hx => nomatch hx)
    fun h s request hr ih _ x hx out hout => ?_
  obtain ⟨-, hg, hok⟩ := resolve_spec (repoOk_run RepoOn.empty hr) request
  rcases List.mem_append.mp hx with hx | hx
  · exact ⟨(ih x hx out hout).1.grows hg, (ih x hx out hout).2⟩
  · rw [List.mem_singleton.mp hx] at hout ⊢
    exact hok out hout

/-- Tenant `t` finds the customer, by its id or by an identity. -/
def FoundFrom (s : InMemoryCustomerRepository) (t c : String) : Prop :=
  (∃ x, ((getCustomer t c).run s).1 = .ok (some x)) ∨
    ∃ kind value x, ((findCustomerByIdentity t kind value).run s).1 = .ok (some x) ∧ x.id = c

theorem FoundFrom.known (hs : RepoOk rt s) {t c : String} (hf : FoundFrom s t c) : s.Known t c := by
  rcases hf with ⟨x, hx⟩ | ⟨kind, value, x, hx, hid⟩
  · exact ⟨x, Except.ok.inj hx⟩
  · cases ho : s.ownerOf t ⟨kind, value⟩ with
    | none =>
      rw [show (findCustomerByIdentity t kind value).run s = _ from find_free ho] at hx
      cases hx
    | some c' =>
      obtain ⟨y, hy, hfind⟩ := find_owned hs ho
      rw [show (findCustomerByIdentity t kind value).run s = _ from hfind] at hx
      cases hx
      rw [← hid, hy]
      exact hs.owner _ _ _ _ ho

/-- In every run: an identity key keeps its customer; a call that returns leaves every hint of its
payload with the returned customer; two calls of one tenant that share a hint return the same
customer; no customer is found from two tenants; and a later call with the same hints, also with the
returned id, returns the same customer, creates and attaches nothing and changes nothing. -/
theorem linking_agreement (hr : LinkRun rt h s) :
    (∀ h' s', Run (linkStep rt) (fun _ _ => True) s h' s' → ∀ key c,
      s.identityIndex.get? key = some c → s'.identityIndex.get? key = some c) ∧
    (∀ x ∈ h, ∀ out, (resolveAlone rt x.1 x.2).1 = .ok out → ∀ hint ∈ x.2.hints rt,
      (linkStep rt x.1 x.2).identityIndex.get? (x.2.tenantId.1, hint.kind, hint.value) =
        some out.customerId) ∧
    (∀ x ∈ h, ∀ y ∈ h, ∀ out out', (resolveAlone rt x.1 x.2).1 = .ok out →
      (resolveAlone rt y.1 y.2).1 = .ok out' → x.2.tenantId = y.2.tenantId →
      ∀ hint ∈ x.2.hints rt, hint ∈ y.2.hints rt → out.customerId = out'.customerId) ∧
    (∀ t t' c, FoundFrom s t c → FoundFrom s t' c → t = t') ∧
    (∀ x ∈ h, ∀ out, (resolveAlone rt x.1 x.2).1 = .ok out → x.2.hints rt ≠ [] →
      (∀ c ∈ x.2.customerId, c.1 = out.customerId) ∧
      ∀ request : IngestionRequest, request.tenantId = x.2.tenantId →
        request.hints rt = x.2.hints rt → (∀ c ∈ request.customerId, c.1 = out.customerId) →
        ∃ again, resolveAlone rt s request = (.ok again, s) ∧ again.customerId = out.customerId ∧
          again.customerCreated = false ∧ again.identitiesAdded = []) := by
  have hs := repoOk_run RepoOn.empty hr
  have hlinked := linked_run hr
  refine ⟨fun h' s' hr' => (grows_run hs hr').identityIndex, fun x hx out hout => ?_,
    fun x hx y hy out out' hout hout' ht hint hhint hhint' => ?_,
    fun t t' c hf hf' => ?_, fun x hx out hout hne => ⟨(hlinked x hx out hout).2,
      fun request ht hhints hid => ?_⟩⟩
  · exact ((resolve_spec (repoOk_calls hr x hx) x.2).2.2 out hout).1
  · have hfirst := (hlinked x hx out hout).1 hint hhint
    have hsecond := (hlinked y hy out' hout').1 hint hhint'
    rw [← ht, hfirst] at hsecond
    exact Option.some.inj hsecond
  · obtain ⟨x, hx⟩ := hf.known hs
    obtain ⟨x', hx'⟩ := hf'.known hs
    exact hs.tenant t t' c x x' hx hx'
  · refine resolve_again hs ?_ (by rw [hhints]; exact hne) hid
    rw [ht, hhints]
    exact (hlinked x hx out hout).1

end Runs

/-- The ASCII case tables, and draws of increasing length. -/
def demoRuntime : Runtime where
  caseData := CaseData.ascii
  hex := fun n => String.ofList (List.replicate n 'a')
  hex_inj := fun m n h => by
    have hlen := congrArg String.length h
    simpa only [String.length_ofList, List.length_replicate] using hlen

def demoRequest (items : List (String × PyVal)) : IngestionRequest where
  tenantId := ⟨"t1", t1_str⟩
  customerId := none
  channelCode := .email
  eventType := .messageReceived
  idempotencyKey := none
  payload := .of items

def byEmail : IngestionRequest := demoRequest [("from_email", .str " Ann@X ")]

theorem linking_agreement_repeated :
    ∃ again, resolveAlone demoRuntime (linkStep demoRuntime {} byEmail) byEmail =
        (.ok again, linkStep demoRuntime {} byEmail) ∧
      again.customerId = "cust_" ∧ again.customerCreated = false ∧ again.identitiesAdded = [] :=
  have hr : LinkRun demoRuntime (Run.trace (linkStep demoRuntime) {} [byEmail])
      (linkStep demoRuntime {} byEmail) := Run.ofOps ⟨trivial, trivial⟩
  have hout : (resolveAlone demoRuntime {} byEmail).1 =
      .ok ⟨"cust_", true, none, none, [⟨.email, "ann@x"⟩]⟩ := rfl
  have hhints : byEmail.hints demoRuntime = [⟨.email, "ann@x"⟩] := rfl
  have hne : byEmail.hints demoRuntime ≠ [] := hhints ▸ List.cons_ne_nil _ _
  ((linking_agreement hr).2.2.2.2 _ List.mem_cons_self _ hout hne).2 byEmail rfl rfl
    fun _ h => nomatch h

end PennyCore
