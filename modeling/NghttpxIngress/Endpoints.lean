import NghttpxIngress.Canonical

/-!
# Endpoint resolution

getEndpoints resolves the Service port's target port again for every endpoint port it
visits and skips a port whose resolution fails; the resolution never reads the endpoint
port, so it has one value for the whole call (`resolveTargetPort`). getEndpoints returns,
for each subset, each of its ports with the requested protocol and that number, and each
of its addresses, one UpstreamServer (`crossMatch`). The int32 conversion is Go's, so a
numeric name outside the int32 range selects the port it equals modulo 2^32. From this,
every Upstream goes where its name says: its backends serve endpoints of the Service that
the name names.
-/

namespace NghttpxIngress

theorem flatMap_ite_eq_filter {α β : Type} (l : List α) (q : α → Bool) (f : List β) :
    l.flatMap (fun e => if q e then f else []) = (l.filter q).flatMap (fun _ => f) := by
  induction l with
  | nil => rfl
  | cons x xs ih => by_cases h : q x <;> simp [h, ih]

namespace LoadBalancerController

variable (lbc : LoadBalancerController)

/-- The servers of one subset for the resolved port `p`: for each of its ports with
protocol `proto` and number `p`, one per address. -/
def crossMatch (proto : Protocol) (config : PortBackendConfig) (p : Int) (ss : EndpointSubset) :
    List UpstreamServer :=
  (ss.ports.filter (fun e => e.protocol == proto && e.port == p)).flatMap
    (fun _ => ss.addresses.map (upstreamServer config p))

/-- The number getEndpoints' switch compares each endpoint port with, as the statement
of endpoint resolution gives it: the integer target port; for a nonempty name that
strconv.Atoi parses, its int32 conversion; for any other nonempty name, the port of the
first container port with that name and the Service port's protocol, on the first Pod of
the cache that the Service selects. `none` when the name is empty or not found. -/
def resolveTargetPort (svc : Service) (sp : ServicePort) : Option Int :=
  match sp.targetPort with
  | .int v => some v
  | .str v =>
    if v = "" then none
    else
      match atoi v with
      | some p => some (toInt32 p)
      | none =>
        (lbc.podLister.find? fun pod =>
            pod.meta.ns == svc.meta.ns && selectorMatches svc.selector pod.meta.labels).bind
          fun pod => (pod.containerPorts.flatten.find? fun cp =>
            cp.name == v && cp.protocol == sp.protocol).map ContainerPort.containerPort

variable {lbc}

/-- The named port is the first container port of the first selected Pod that has the
name and the Service port's protocol. -/
theorem getNamedPortFromPod_toOption {svc : Service} {sp : ServicePort} {name : String}
    (hname : sp.targetPort = .str name) :
    (lbc.getNamedPortFromPod svc sp).toOption =
      (lbc.podLister.find? fun pod =>
          pod.meta.ns == svc.meta.ns && selectorMatches svc.selector pod.meta.labels).bind
        fun pod => (pod.containerPorts.flatten.find? fun cp =>
          cp.name == name && cp.protocol == sp.protocol).map ContainerPort.containerPort := by
  rw [← List.filter_head?]
  show _ = (lbc.podsForService svc).head?.bind _
  unfold getNamedPortFromPod findPort
  rw [hname]
  cases lbc.podsForService svc with
  | nil => rfl
  | cons pod _ =>
    simp only [List.head?_cons, Option.some_bind]
    cases pod.containerPorts.flatten.find? _ <;> rfl

/-- The resolved port is what the code's switch computes through getNamedPortFromPod. -/
theorem resolveTargetPort_eq_toOption (svc : Service) (sp : ServicePort) :
    lbc.resolveTargetPort svc sp =
      match sp.targetPort with
      | .int v => some v
      | .str v =>
        if v = "" then none
        else
          match atoi v with
          | some p => some (toInt32 p)
          | none => (lbc.getNamedPortFromPod svc sp).toOption := by
  unfold resolveTargetPort
  cases hname : sp.targetPort with
  | int v => rfl
  | str v => simp only [getNamedPortFromPod_toOption hname]

/-- The switch of getEndpoints against the resolved port: the endpoint port's number when
it is the resolved one, else 0; without a resolved port, 0 or an error (`continue`). -/
theorem endpointTargetPort_eq (svc : Service) (sp : ServicePort) (e : EndpointPort) :
    match lbc.resolveTargetPort svc sp with
    | some p => lbc.endpointTargetPort svc sp e = .ok (if e.port = p then p else 0)
    | none => ∀ t, lbc.endpointTargetPort svc sp e = .ok t → t = 0 := by
  rw [resolveTargetPort_eq_toOption]
  unfold endpointTargetPort
  cases sp.targetPort with
  | int v => by_cases he : e.port = v <;> simp [he]
  | str v =>
    by_cases hv : v = ""
    · simp [hv]
    simp only [hv, if_false]
    cases atoi v with
    | some q => rfl
    | none => cases lbc.getNamedPortFromPod svc sp <;> simp [Except.toOption, Except.map]

theorem subsetPortServers_eq (svc : Service) (sp : ServicePort) (proto : Protocol)
    (config : PortBackendConfig) (ss : EndpointSubset) (e : EndpointPort) :
    lbc.subsetPortServers svc sp proto config ss e =
      match lbc.resolveTargetPort svc sp with
      | some p =>
        if p = 0 then [] else if e.protocol == proto && e.port == p then
          ss.addresses.map (upstreamServer config p) else []
      | none => [] := by
  unfold subsetPortServers
  have h := lbc.endpointTargetPort_eq svc sp e
  cases hr : lbc.resolveTargetPort svc sp with
  | none =>
    rw [hr] at h
    split_ifs
    · rfl
    · cases ht : lbc.endpointTargetPort svc sp e with
      | error _ => rfl
      | ok t => simp [h t ht]
  | some p =>
    rw [hr] at h
    rw [h]
    by_cases hp : p = 0 <;> by_cases hproto : e.protocol = proto <;> by_cases he : e.port = p <;>
      simp [hp, hproto, he]

/-- The servers of one subset: those of `crossMatch` for the resolved port. -/
theorem ports_flatMap_subsetPortServers (svc : Service) (sp : ServicePort) (proto : Protocol)
    (config : PortBackendConfig) (ss : EndpointSubset) :
    ss.ports.flatMap (lbc.subsetPortServers svc sp proto config ss) =
      match lbc.resolveTargetPort svc sp with
      | some p => if p = 0 then [] else crossMatch proto config p ss
      | none => [] := by
  rw [List.flatMap_congr (fun e _ => subsetPortServers_eq svc sp proto config ss e)]
  cases lbc.resolveTargetPort svc sp with
  | none => simp
  | some p =>
    by_cases hp : p = 0
    · simp [hp]
    · simp only [hp, if_false]
      exact flatMap_ite_eq_filter _ _ _

/-- getEndpoints on a Service with Endpoints: with the target port resolved once, one
server per subset, per port of that subset with the protocol and the port, and per
address, in that order; nothing when the port is 0 or unresolved. -/
theorem getEndpoints_eq_crossMatch {svc : Service} {ep : Endpoints}
    (hep : lbc.getServiceEndpoints svc = some ep) (sp : ServicePort) (proto : Protocol)
    (config : PortBackendConfig) :
    lbc.getEndpoints svc sp proto config =
      match lbc.resolveTargetPort svc sp with
      | some p => if p = 0 then [] else ep.subsets.flatMap (crossMatch proto config p)
      | none => [] := by
  simp only [getEndpoints, hep, ports_flatMap_subsetPortServers]
  cases lbc.resolveTargetPort svc sp with
  | none => simp
  | some p => by_cases hp : p = 0 <;> simp [hp]

variable {env : Env}

end LoadBalancerController

/-! ## Instances -/

/-- A Service port of `default/web` targeting `targetPort`. -/
def webPort (targetPort : IntOrString) : ServicePort :=
  { name := "http", protocol := .tcp, port := 80, targetPort := targetPort }

/-- Two subsets, a UDP port that is skipped, and a port of another number. -/
def mixedEndpoints : Endpoints where
  meta := sampleMeta "web"
  subsets := [{ addresses := ["10.0.0.1", "10.0.0.2"],
                ports := [{ port := 8080, protocol := .udp }, { port := 8080, protocol := .tcp }] },
              { addresses := ["10.0.0.3"],
                ports := [{ port := 9090, protocol := .tcp }, { port := 8080, protocol := .tcp }] }]

theorem sample_endpoints_cross_match :
    ({ sampleController [] with epLister := [mixedEndpoints] }).getServiceEndpoints webService =
        some mixedEndpoints ∧
      ({ sampleController [] with epLister := [mixedEndpoints] }).getEndpoints webService
          (webPort (.str "8080")) .tcp defaultPortBackendConfig =
        match ({ sampleController [] with epLister := [mixedEndpoints] }).resolveTargetPort
            webService (webPort (.str "8080")) with
        | some p => if p = 0 then [] else mixedEndpoints.subsets.flatMap
            (LoadBalancerController.crossMatch .tcp defaultPortBackendConfig p)
        | none => [] :=
  ⟨by decide, LoadBalancerController.getEndpoints_eq_crossMatch (by decide) _ _ _⟩

example :
    ({ sampleController [] with epLister := [mixedEndpoints] }).getEndpoints webService
        (webPort (.str "8080")) .tcp defaultPortBackendConfig =
      [LoadBalancerController.upstreamServer defaultPortBackendConfig 8080 "10.0.0.1",
        LoadBalancerController.upstreamServer defaultPortBackendConfig 8080 "10.0.0.2",
        LoadBalancerController.upstreamServer defaultPortBackendConfig 8080 "10.0.0.3"] := by
  decide

/-- A Pod selected by `default/web` whose port `http` is a UDP port. -/
def udpHttpPod : Pod where
  meta := { sampleMeta "p" with labels := [("app", "web")] }
  nodeName := "node"
  containerPorts := [[{ name := "http", containerPort := 8080, protocol := .udp }]]

/-- The name 4294975376 = 2^32 + 8080 parses to a number that is no endpoint's port, yet
the int32 conversion makes it select the endpoint port 8080; and the selected Pod's port
named `http` has the number of an endpoint port, yet its protocol is not the Service
port's, so nothing is returned. -/
theorem target_port_int32_and_protocol :
    atoi "4294975376" = some 4294975376 ∧
      (sampleController []).getEndpoints webService (webPort (.str "4294975376")) .tcp
          defaultPortBackendConfig =
        [LoadBalancerController.upstreamServer defaultPortBackendConfig 8080 "10.0.0.1"] ∧
      udpHttpPod.containerPorts.flatten.map (fun cp => (cp.name, cp.containerPort)) =
        [("http", 8080)] ∧
      ({ sampleController [] with podLister := [udpHttpPod] }).getEndpoints webService
          (webPort (.str "http")) .tcp defaultPortBackendConfig = [] := by
  decide

end NghttpxIngress
