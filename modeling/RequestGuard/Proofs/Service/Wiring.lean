import RequestGuard.Proofs.Json.Structure
import RequestGuard.Proofs.Service.Crossing
import RequestGuard.Service.Site

/-!
# Wiring

Which verbs a handler serves, which verbs the guards in front of it cover and which handlers need
the data that a guard leaves are settled in three places. Where the three do not agree the service
is at fault, and only there.

No gate answers that the service is at fault (`status_crossAll`), so such an answer comes from a
handler (`Resource.internalError_iff_exists`), and a handler finds data exactly if a guard covers the
verb (`underway_crossAll`). A resource whose handlers need data thus fails at the verbs that it
serves and no guard covers (`Resource.internalError_iff_uncovered`). On the site that is one verb of
one resource.
-/

namespace RequestGuard.Service

/-! ## Gates are not at fault -/

/-- A request that cannot be read is at fault itself. -/
theorem status_of_unreadable {r : Request} {limit : Nat} {source : Source} {f : Failure}
    (h : r.read limit source = .error f) : f.status ≠ .internalError := by
  unfold Request.read at h
  split at h
  · rename_i why _
    cases h
    cases why <;> exact Status.noConfusion
  · split at h
    · cases h
      exact Status.noConfusion
    · cases h

section

variable {limit : Nat} {response : Response}

theorem status_judge {g : Guard} {m : Method} {r : Request} {d : RequestData} {t : Tally}
    (h : (judge g m r d t).progress = .answered response) : response.status ≠ .internalError := by
  unfold judge at h
  split at h
  · cases h
  · cases h
    exact Status.noConfusion

theorem status_cross {g : Guard} {p : Passage} {t : Tally}
    (h : (cross limit g p t).progress = .answered response) :
    response.status ≠ .internalError := by
  unfold cross at h
  split at h
  · cases h
    exact Status.noConfusion
  · split at h
    · cases h
    · split at h
      · exact status_judge h
      · split at h
        · rename_i hread
          cases h
          exact status_of_unreadable hread
        · exact status_judge h

/-- What a stack of guards answers is never that the service is at fault. -/
theorem status_crossAll {gs : List Guard} {p : Passage} {t : Tally}
    (h : (crossAll limit gs p t).progress = .answered response) :
    response.status ≠ .internalError := by
  induction gs generalizing p t with
  | nil => cases h
  | cons g gs ih =>
    rw [crossAll, andThen_eq_answered_iff] at h
    obtain hfirst | ⟨q, -, hrest⟩ := h
    · exact status_cross hfirst
    · exact ih hrest

end

/-! ## What handlers find -/

/-- What a stack of guards lets pass is the request as it came, with data if it had some or a guard
covers the verb. -/
theorem underway_crossAll {limit : Nat} {m : Method} {gs : List Guard} {p q : Passage} {t : Tally}
    (hm : Method.read p.request.verb = .ok m)
    (h : (crossAll limit gs p t).progress = .underway q) :
    q.request = p.request ∧ q.data.isSome = (p.data.isSome || gs.any (·.covers m)) := by
  induction gs generalizing p t with
  | nil =>
    cases h
    exact ⟨rfl, (Bool.or_false _).symm⟩
  | cons g gs ih =>
    rw [crossAll, andThen_eq_underway_iff] at h
    obtain ⟨p', hfirst, hrest⟩ := h
    obtain ⟨hrequest, hdata⟩ := underway_cross hm hfirst
    obtain ⟨hrequest', hdata'⟩ := ih (by rw [hrequest, hm]) hrest
    refine ⟨hrequest'.trans hrequest, ?_⟩
    rw [hdata', hdata, List.any_cons, Bool.or_assoc]

/-- Be its verb one or none, a request that gets through a stack is the one that came. -/
theorem request_crossAll {limit : Nat} {gs : List Guard} {p q : Passage} {t : Tally}
    (h : (crossAll limit gs p t).progress = .underway q) : q.request = p.request := by
  cases hm : Method.read p.request.verb with
  | ok m => exact (underway_crossAll hm h).1
  | error e =>
    cases gs with
    | nil =>
      cases h
      rfl
    | cons g gs =>
      rw [crossAll, andThen_eq_underway_iff] at h
      obtain ⟨p', hfirst, -⟩ := h
      rw [cross_of_no_verb hm] at hfirst
      cases hfirst

/-! ## Resources -/

namespace Resource

variable {resource : Resource} {limit : Nat} {r : Request} {t : Tally}

theorem status_answer :
    (resource.answer limit r t).1.status =
      (mount limit resource.guards resource.handlers.serve ⟨r, none⟩ t).1.status := by
  simp only [answer, Response.status_forVerb]
  split <;> rfl

/-- If the service is at fault, it is a handler that is, on what gets through the guards. -/
theorem internalError_iff_exists {c : Crossing}
    (hc : crossAll limit resource.guards.reverse ⟨r, none⟩ t = c) :
    (resource.answer limit r t).1.status = .internalError ↔
      ∃ p handler, c.progress = .underway p ∧ resource.handlers.find? r.verb = some handler ∧
        (handler p c.tally).status = .internalError := by
  rw [status_answer, mount_eq_crossAll, hc]
  cases hprogress : c.progress with
  | answered response =>
    have hstatus : response.status ≠ .internalError :=
      status_crossAll ((congrArg Crossing.progress hc).trans hprogress)
    simp [Crossing.finish, hprogress, hstatus]
  | underway p =>
    -- The handler is looked up by the verb that got through, which is the one that came.
    have hrequest : p.request = r :=
      request_crossAll ((congrArg Crossing.progress hc).trans hprogress)
    cases hfind : resource.handlers.find? r.verb with
    | none => simp [Crossing.finish, hprogress, Handlers.serve, hrequest, hfind, Response.bare]
    | some handler => simp [Crossing.finish, hprogress, Handlers.serve, hrequest, hfind]

/-- **Where a resource is badly wired.** Let its handlers for a verb need data: they are at fault
where there is none, and only there. Then the service is at fault if there is such a handler and no
guard that covers the verb. -/
theorem internalError_iff_uncovered {m : Method} (hm : Method.read r.verb = .ok m)
    (hneeds : ∀ handler, resource.handlers.find? r.verb = some handler →
      ∀ p t, (handler p t).status = .internalError ↔ p.data = none) :
    (resource.answer limit r t).1.status = .internalError ↔
      (resource.handlers.find? r.verb).isSome = true ∧
        ∀ g ∈ resource.guards, g.covers m = false := by
  rw [internalError_iff_exists rfl]
  constructor
  · rintro ⟨p, handler, hp, hfind, hstatus⟩
    -- A handler that found no data stands behind guards of which none covers the verb.
    have hnone : p.data = none := (hneeds handler hfind _ _).1 hstatus
    have hdata := (underway_crossAll (p := ⟨r, none⟩) hm hp).2
    rw [hnone, List.any_reverse] at hdata
    refine ⟨Option.isSome_of_eq_some hfind, ?_⟩
    simpa using hdata.symm
  · rintro ⟨hfind, hguards⟩
    obtain ⟨handler, hfind⟩ := Option.isSome_iff_exists.mp hfind
    have hnone : ∀ g ∈ resource.guards.reverse, g.covers m = false := by
      intro g hg
      exact hguards g (List.mem_reverse.mp hg)
    rw [crossAll_of_not_covers hm limit hnone]
    exact ⟨⟨r, none⟩, handler, rfl, hfind, (hneeds handler hfind _ _).2 rfl⟩

/-- A resource whose handlers are never at fault never is. -/
theorem status_ne_of_handlers
    (hhandlers : ∀ handler, resource.handlers.find? r.verb = some handler →
      ∀ p t, (handler p t).status ≠ .internalError) :
    (resource.answer limit r t).1.status ≠ .internalError := by
  rw [Ne, internalError_iff_exists rfl]
  rintro ⟨p, handler, -, hfind, hstatus⟩
  exact hhandlers handler hfind _ _ hstatus

end Resource

theorem Handler.status_ofData {respond : RequestData → Response}
    (h : ∀ d, (respond d).status ≠ .internalError) (p : Passage) (t : Tally) :
    (Handler.ofData respond p t).status = .internalError ↔ p.data = none := by
  unfold ofData
  cases p.data with
  | none => exact iff_of_true rfl rfl
  | some d => exact iff_of_false (h d) (Option.some_ne_none d)

/-- What is asked of a service is asked of the resource at the path, if there is one. -/
theorem internalError_iff_lookup {service : Service} {r : Request} {t : Tally} :
    (service.answer r t).1.status = .internalError ↔
      ∃ resource, service.resources.lookup r.target.path = some resource ∧
        (resource.answer service.bodyLimit r t).1.status = .internalError := by
  unfold answer
  cases service.resources.lookup r.target.path with
  | none => simp [Response.bare]
  | some resource => simp

/-! ## The site -/

/-- Accounts are served to three verbs, by handlers that need the data. -/
theorem Accounts.find?_cases {verb : String} {handler : Handler}
    (h : resource.handlers.find? verb = some handler) :
    (verb = "HEAD" ∨ verb = "GET" ∨ verb = "POST") ∧
      ∀ p t, (handler p t).status = .internalError ↔ p.data = none := by
  have hmem := mem_of_lookup_eq_some h
  rw [List.mem_cons, List.mem_singleton, Prod.mk.injEq, Prod.mk.injEq] at hmem
  obtain ⟨hverb, rfl⟩ | ⟨hverb, rfl⟩ := hmem
  · refine ⟨?_, Handler.status_ofData fun d => Status.noConfusion⟩
    split at hverb
    · exact .inl ‹_›
    · exact .inr (.inl hverb)
  · refine ⟨?_, Handler.status_ofData fun d => Status.noConfusion⟩
    split at hverb
    · exact .inl ‹_›
    · exact .inr (.inr hverb)

/-- A guard is there for `GET` and one for `POST`, and none for `HEAD`. -/
theorem Accounts.internalError_iff {limit : Nat} {r : Request} {t : Tally} :
    (resource.answer limit r t).1.status = .internalError ↔ r.verb = "HEAD" := by
  have huncovered (m : Method) (hm : Method.read r.verb = .ok m) :
      (resource.answer limit r t).1.status = .internalError ↔
        (resource.handlers.find? r.verb).isSome = true ∧
          ∀ g ∈ resource.guards, g.covers m = false :=
    Resource.internalError_iff_uncovered hm fun handler hfind => (find?_cases hfind).2
  constructor
  · intro h
    obtain ⟨p, handler, -, hfind, -⟩ := (Resource.internalError_iff_exists rfl).1 h
    obtain hhead | hget | hpost := (find?_cases hfind).1
    · exact hhead
    · have hm : Method.read r.verb = .ok .get := by
        rw [hget]
        decide +kernel
      have hsearch := ((huncovered .get hm).1 h).2 searchGuard (by simp [resource])
      exact absurd hsearch (by decide)
    · have hm : Method.read r.verb = .ok .post := by
        rw [hpost]
        decide +kernel
      have hcreation := ((huncovered .post hm).1 h).2 creationGuard (by simp [resource])
      exact absurd hcreation (by decide)
  · intro hhead
    have hm : Method.read r.verb = .ok .head := by
      rw [hhead]
      decide +kernel
    refine (huncovered .head hm).2 ⟨by rw [hhead]; rfl, ?_⟩
    intro g hg
    simp only [resource, List.mem_cons, List.not_mem_nil, or_false] at hg
    obtain rfl | rfl := hg <;> decide

/-- A resource that serves `GET` alone, with a handler that is never at fault, never is. -/
theorem status_ne_of_get {handler : Handler} {guards : List Guard}
    (h : ∀ p t, (handler p t).status ≠ .internalError) (limit : Nat) (r : Request) (t : Tally) :
    (Resource.answer ⟨.each [("GET", handler)], guards⟩ limit r t).1.status ≠ .internalError := by
  apply Resource.status_ne_of_handlers
  intro found hfind
  have hmem := mem_of_lookup_eq_some hfind
  rw [List.mem_singleton, Prod.mk.injEq] at hmem
  rw [hmem.2]
  exact h

/-- What the site has beside accounts is never at fault. -/
theorem mem_site {bodyLimit : Nat} {exposesMetrics : Bool} {path : String} {resource : Resource}
    (h : (path, resource) ∈ (site bodyLimit exposesMetrics).resources) :
    (path = "/v1/accounts" ∧ resource = Accounts.resource) ∨
      ∀ limit r t, (resource.answer limit r t).1.status ≠ .internalError := by
  simp only [site, List.mem_append, List.mem_cons, List.not_mem_nil, or_false,
    Prod.mk.injEq] at h
  obtain ((⟨-, rfl⟩ | ⟨-, rfl⟩) | hmetrics) | haccounts := h
  · exact .inr (status_ne_of_get fun _ _ => Status.noConfusion)
  · exact .inr (status_ne_of_get fun _ _ => Status.noConfusion)
  · split at hmetrics
    · rw [List.mem_singleton, Prod.mk.injEq] at hmetrics
      obtain ⟨-, rfl⟩ := hmetrics
      exact .inr (status_ne_of_get fun _ _ => Status.noConfusion)
    · cases hmetrics
  · exact .inl haccounts

/-- **The site is at fault in one case.** Whatever is asked of it, in whatever state its counters
are, it answers that it is at fault exactly to `HEAD` on accounts: the handler for `GET` serves that
verb, and the guard for `GET` does not cover it. -/
theorem site_internalError_iff (bodyLimit : Nat) (exposesMetrics : Bool) (r : Request) (t : Tally) :
    ((site bodyLimit exposesMetrics).answer r t).1.status = .internalError ↔
      r.verb = "HEAD" ∧ r.target.path = "/v1/accounts" := by
  rw [internalError_iff_lookup]
  constructor
  · rintro ⟨resource, hlookup, hstatus⟩
    obtain ⟨hpath, rfl⟩ | hnever := mem_site (mem_of_lookup_eq_some hlookup)
    · exact ⟨Accounts.internalError_iff.1 hstatus, hpath⟩
    · exact absurd hstatus (hnever _ r t)
  · rintro ⟨hhead, hpath⟩
    refine ⟨Accounts.resource, ?_, Accounts.internalError_iff.2 hhead⟩
    rw [hpath]
    cases exposesMetrics <;> rfl

/-- A search that would be answered under `GET`. -/
theorem site_head_internalError :
    let target : Target := ⟨"/v1/accounts", "q=acme&page=3&owner=ops".utf8Bytes⟩
    ((site 2097152 true).answer ⟨"HEAD", target, [], .whole []⟩ .zero).1.status =
        .internalError ∧
      ((site 2097152 true).answer ⟨"GET", target, [], .whole []⟩ .zero).1.status = .ok := by
  intro target
  exact ⟨by decide +kernel, by decide +kernel⟩

end RequestGuard.Service
