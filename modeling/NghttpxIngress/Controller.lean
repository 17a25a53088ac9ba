import NghttpxIngress.Nghttpx

/-!
# The Config Resolver

`getUpstreamServers` and what it calls, translated from `controller.go`. A Go panic
and a returned error are the two ways a call can fail (`Failure`). Go's `for` loops
that append to a slice are `flatMap`s and `filterMap`s over the same lists in the same
order; a loop that stops at its first match is `find?`.
-/

namespace NghttpxIngress

/-- A Go call that does not return normally: a returned error or a runtime panic. -/
inductive Failure
  | error (msg : String)
  | panic (msg : String)
  deriving DecidableEq

/-- strconv.Atoi on a 64-bit platform: an optional sign and decimal digits whose value
fits in int64. -/
def atoi (s : String) : Option Int :=
  let (neg, digits) : Bool × List Char := match s.data with
    | '-' :: ds => (true, ds)
    | '+' :: ds => (false, ds)
    | ds => (false, ds)
  if digits.isEmpty || !digits.all Char.isDigit then none
  else
    let n : Nat := digits.foldl (fun n c => 10 * n + (c.toNat - '0'.toNat)) 0
    let v : Int := if neg then -n else n
    if -9223372036854775808 ≤ v ∧ v < 9223372036854775808 then some v else none

def toInt32 (x : Int) : Int := (x + 2147483648) % 4294967296 - 2147483648

structure LoadBalancerController where
  ingLister : List Ingress
  svcLister : List Service
  epLister : List Endpoints
  secretLister : List Secret
  cmLister : List ConfigMap
  podLister : List Pod
  nodeLister : List Node
  defaultSvc : String
  ngxConfigMap : String
  defaultTLSSecret : String
  ingressClass : String
  allowInternalIP : Bool
  podName : String
  podNamespace : String

def ingressClassKey : String := "kubernetes.io/ingress.class"

/-- Modelled from the spec: ingressAnnotation.getIngressClass, the class annotation,
empty when unset. -/
def getIngressClass (annotations : List (String × String)) : String :=
  (annotations.lookup ingressClassKey).getD ""

def tlsCertKey : String := "tls.crt"

def tlsPrivateKeyKey : String := "tls.key"

def createTLSCredFromSecret (env : Env) (secret : Secret) : Except String TLSCred :=
  let sid := secret.meta.ns ++ "/" ++ secret.meta.name
  match secret.data.lookup tlsCertKey, secret.data.lookup tlsPrivateKeyKey with
  | none, _ => .error ("Secret " ++ sid ++ " has no certificate")
  | some _, none => .error ("Secret " ++ sid ++ " has no private key")
  | some cert, some key =>
    match env.commonNames cert, env.checkPrivateKey key with
    | .error err, _ =>
      .error ("No valid TLS certificate found in Secret " ++ sid ++ ": " ++ err)
    | .ok _, .error err =>
      .error ("No valid TLS private key found in Secret " ++ sid ++ ": " ++ err)
    | .ok _, .ok _ =>
      match env.createTLSCred (tlsCredPrefix secret) cert key with
      | .error err => .error ("Could not create private key and certificate files for Secret "
          ++ sid ++ ": " ++ err)
      | .ok c => .ok c

def isDefaultUpstream (u : Upstream) : Bool :=
  u.host == "" && (u.path == "" || u.path == "/")

/-- strings.HasPrefix(path, "/") with the empty path normalized to "/". -/
def normalizePath (path : String) : Option String :=
  if path = "" then some "/" else if path.data.head? = some '/' then some path else none

def addrPort (b : UpstreamServer) : String × String := (b.address, b.port)

def backendKey (b : UpstreamServer) : List Char ×ₗ List Char :=
  toLex (b.address.data, b.port.data)

/-- The deduplication loop of getUpstreamServers after sorting an Upstream's backends;
indexing `backends[0]` panics on an empty list. -/
def uniqBackends (env : Env) (u : Upstream) : Except Failure Upstream :=
  match env.sortSlice.sort backendKey u.backends with
  | [] => .error (.panic "index out of range [0] with length 0")
  | b :: bs =>
    .ok { u with backends := bs.destutter' (fun l s => addrPort l ≠ addrPort s) b }

/-- The TLS fields from the default credential and the sorted, deduplicated list:
the default credential is removed from the list, or the head of the list becomes it. -/
def tlsConfig (defaultTLSCred : Option TLSCred) (pems : List TLSCred) :
    Bool × Option TLSCred × List TLSCred :=
  match defaultTLSCred with
  | some d => (true, some d, pems.eraseP (fun p => p.key.path == d.key.path))
  | none =>
    match pems with
    | [] => (false, none, [])
    | p :: ps => (true, some p, ps)

namespace LoadBalancerController

variable (env : Env) (lbc : LoadBalancerController)

def validateIngressClass (ing : Ingress) : Bool :=
  getIngressClass ing.meta.annotations == "" ||
    getIngressClass ing.meta.annotations == lbc.ingressClass

def getServiceEndpoints (svc : Service) : Option Endpoints :=
  lbc.epLister.find? (fun ep => svc.meta.name == ep.meta.name && svc.meta.ns == ep.meta.ns)

/-- `podLister.Pods(svc.Namespace).List(selector)` for the Service's selector. -/
def podsForService (svc : Service) : List Pod :=
  lbc.podLister.filter (fun p => p.meta.ns == svc.meta.ns && selectorMatches svc.selector p.meta.labels)

/-- podutil.FindPort: a named target port is looked up among the Pod's container ports
with the Service port's protocol. -/
def findPort (pod : Pod) (sp : ServicePort) : Except String Int :=
  match sp.targetPort with
  | .int v => .ok v
  | .str name =>
    match pod.containerPorts.flatten.find? (fun cp => cp.name == name && cp.protocol == sp.protocol) with
    | some cp => .ok cp.containerPort
    | none => .error "no suitable port for manifest"

def getNamedPortFromPod (svc : Service) (sp : ServicePort) : Except String Int :=
  match lbc.podsForService svc with
  | [] => .error ("No Pods available for Service " ++ svc.meta.ns ++ "/" ++ svc.meta.name)
  | pod :: _ =>
    match findPort pod sp with
    | .ok port => .ok port
    | .error err => .error ("Failed to find port " ++ sp.targetPort.toString ++ " from Pod "
        ++ pod.meta.ns ++ "/" ++ pod.meta.name ++ ": " ++ err)

/-- The switch on the target port's type in getEndpoints: the target port when the
endpoint port matches it, 0 when it does not, an error when a named port is not found. -/
def endpointTargetPort (svc : Service) (sp : ServicePort) (epPort : EndpointPort) :
    Except String Int :=
  match sp.targetPort with
  | .int v => .ok (if epPort.port = v then epPort.port else 0)
  | .str v =>
    if v = "" then .ok 0
    else
      let port : Except String Int := match atoi v with
        | some p => .ok (toInt32 p)
        | none => lbc.getNamedPortFromPod svc sp
      port.map (fun p => if epPort.port = p then p else 0)

def upstreamServer (config : PortBackendConfig) (port : Int) (address : String) :
    UpstreamServer :=
  { address := address, port := itoa port, protocol := config.proto, tls := config.tls,
    sni := config.sni, dns := config.dns, affinity := config.affinity }

def subsetPortServers (svc : Service) (sp : ServicePort) (proto : Protocol)
    (config : PortBackendConfig) (ss : EndpointSubset) (epPort : EndpointPort) :
    List UpstreamServer :=
  if epPort.protocol ≠ proto then []
  else
    match lbc.endpointTargetPort svc sp epPort with
    | .error _ => []
    | .ok targetPort => if targetPort = 0 then [] else ss.addresses.map (upstreamServer config targetPort)

def getEndpoints (svc : Service) (sp : ServicePort) (proto : Protocol)
    (config : PortBackendConfig) : List UpstreamServer :=
  match lbc.getServiceEndpoints svc with
  | none => []
  | some ep => ep.subsets.flatMap (fun ss => ss.ports.flatMap (lbc.subsetPortServers svc sp proto config ss))

def getTLSCredFromSecret (secretKey : String) : Except String TLSCred :=
  match getByKey Secret.meta lbc.secretLister secretKey with
  | none => .error ("Secret " ++ secretKey ++ " has been deleted")
  | some secret => createTLSCredFromSecret env secret

/-- getTLSCredFromIngress: the credential of each TLS Secret of the Ingress, failing at
the first that cannot be processed. -/
def getTLSCredFromIngress (ing : Ingress) : Except String (List TLSCred) :=
  ing.tls.mapM (fun secretName => lbc.getTLSCredFromSecret env (ing.meta.ns ++ "/" ++ secretName))

def defaultTLSCred : Except String (Option TLSCred) :=
  if lbc.defaultTLSSecret = "" then .ok none
  else (lbc.getTLSCredFromSecret env lbc.defaultTLSSecret).map some

/-- getDefaultUpstream; `svc.Spec.Ports[0]` panics on a Service without ports. -/
def getDefaultUpstream : Except Failure Upstream :=
  let upstream : Upstream :=
    { name := lbc.defaultSvc, host := "", path := "", backends := [],
      redirectIfNotTLS := lbc.defaultTLSSecret != "" }
  match getByKey Service.meta lbc.svcLister lbc.defaultSvc with
  | none => .ok { upstream with backends := [newDefaultServer] }
  | some svc =>
    match svc.ports with
    | [] => .error (.panic "index out of range [0] with length 0")
    | sp :: _ =>
      let eps := lbc.getEndpoints svc sp .tcp defaultPortBackendConfig
      .ok { upstream with backends := (if eps.isEmpty then [newDefaultServer] else eps) }

/-- The first port of the Service matching the backend's port string by number, target
port or name. -/
def findServicePort (svc : Service) (bp : String) : Option ServicePort :=
  svc.ports.find? (fun sp => itoa sp.port == bp || sp.targetPort.toString == bp || sp.name == bp)

def pathBackends (backendConfig : List (String × List (String × PortBackendConfig)))
    (path : HTTPIngressPath) (svc : Service) : List UpstreamServer :=
  let bp := path.backend.servicePort.toString
  match findServicePort svc bp with
  | none => []
  | some sp =>
    let svcBackendConfig := (backendConfig.lookup path.backend.serviceName).getD []
    let portBackendConfig := match svcBackendConfig.lookup bp with
      | some c => fixupPortBackendConfig c
      | none => defaultPortBackendConfig
    lbc.getEndpoints svc sp .tcp portBackendConfig

/-- The Upstream of one path of an Ingress rule, or none when the path is skipped. -/
def pathUpstream (ing : Ingress) (requireTLS : Bool)
    (backendConfig : List (String × List (String × PortBackendConfig))) (rule : IngressRule)
    (path : HTTPIngressPath) : Option Upstream := do
  let normalizedPath ← normalizePath path.path
  let svcKey := ing.meta.ns ++ "/" ++ path.backend.serviceName
  let svc ← getByKey Service.meta lbc.svcLister svcKey
  let backends := lbc.pathBackends backendConfig path svc
  if backends = [] then none
  else some { name := svcKey ++ "," ++ path.backend.servicePort.toString ++ ";" ++ rule.host
                ++ normalizedPath,
              host := rule.host, path := normalizedPath, backends := backends,
              redirectIfNotTLS := requireTLS || lbc.defaultTLSSecret != "" }

def ruleUpstreams (ing : Ingress) (requireTLS : Bool)
    (backendConfig : List (String × List (String × PortBackendConfig))) (rule : IngressRule) :
    List Upstream :=
  match rule.http with
  | none => []
  | some paths => paths.filterMap (lbc.pathUpstream ing requireTLS backendConfig rule)

/-- What one Ingress contributes: its TLS credentials and its Upstreams, or none when it
is out of scope or its TLS Secrets cannot be processed. -/
def ingressUpstreams (ing : Ingress) : Option (List TLSCred × List Upstream) :=
  if !lbc.validateIngressClass ing then none
  else
    match lbc.getTLSCredFromIngress env ing with
    | .error _ => none
    | .ok ingPems =>
      some (ingPems, ing.rules.flatMap (lbc.ruleUpstreams ing (!ingPems.isEmpty)
        (env.getBackendConfig ing.meta.annotations)))

def collectPems (ings : List Ingress) : List TLSCred :=
  (ings.filterMap (lbc.ingressUpstreams env)).flatMap Prod.fst

def collectUpstreams (ings : List Ingress) : List Upstream :=
  (ings.filterMap (lbc.ingressUpstreams env)).flatMap Prod.snd

def addDefaultUpstream (upstreams : List Upstream) : Except Failure (List Upstream) :=
  if upstreams.any isDefaultUpstream then .ok upstreams
  else (lbc.getDefaultUpstream).map (fun d => upstreams ++ [d])

def getUpstreamServers (ings : List Ingress) : Except Failure IngressConfig := do
  let defaultCred ← (lbc.defaultTLSCred env).mapError Failure.error
  let pems := removeDuplicatePems (env.sortSlice.sort (fun p => p.key.path.data) (lbc.collectPems env ings))
  let upstreams ← lbc.addDefaultUpstream (lbc.collectUpstreams env ings)
  let upstreams ← (env.sortSlice.sort (fun u => u.name.data) upstreams).mapM (uniqBackends env)
  let (tls, defaultTLSCred, subTLSCred) := tlsConfig defaultCred pems
  pure { upstreams := upstreams, tls := tls, defaultTLSCred := defaultTLSCred,
         subTLSCred := subTLSCred }

/-- getConfigMap; `none` stands for the empty `&api.ConfigMap{}`. -/
def getConfigMap (cmKey : String) : Option ConfigMap :=
  if cmKey = "" then none else getByKey ConfigMap.meta lbc.cmLister cmKey

/-- What sync builds from the caches and hands to the sink: the resolved configuration
and the ConfigMap given to ReadConfig. -/
def syncConfig : Except Failure IngressConfig × Option ConfigMap :=
  (lbc.getUpstreamServers env lbc.ingLister, lbc.getConfigMap lbc.ngxConfigMap)

end LoadBalancerController

/-! ## A sample snapshot -/

/-- Go's sort on small inputs, TLS material accepted as it is, no backend-config
annotation. -/
def sampleEnv : Env where
  sortSlice := SortSlice.insertion
  commonNames _ := .ok ["example.com"]
  checkPrivateKey _ := .ok ()
  writeTLSFiles _ _ _ := .ok ()
  getBackendConfig _ := []

def sampleMeta (name : String) : ObjectMeta := { ns := "default", name := name, valid := rfl }

def webService : Service where
  meta := sampleMeta "web"
  selector := [("app", "web")]
  ports := [{ name := "http", protocol := .tcp, port := 80, targetPort := .int 8080 }]

def webEndpoints : Endpoints where
  meta := sampleMeta "web"
  subsets := [{ addresses := ["10.0.0.1"], ports := [{ port := 8080, protocol := .tcp }] }]

def webBackend : IngressBackend := { serviceName := "web", servicePort := .int 80 }

/-- An Ingress sending every request to `default/web:80`. -/
def catchAllIngress (name : String) (tls : List String) : Ingress where
  meta := sampleMeta name
  tls := tls
  status := []
  rules := [{ host := "", http := some [{ path := "/", backend := webBackend }] }]

def tlsSecret : Secret where
  meta := sampleMeta "tls"
  data := [(tlsCertKey, [1]), (tlsPrivateKeyKey, [2])]

/-- Two Ingresses declaring the same catch-all, the first with a TLS section. -/
def sampleIngresses : List Ingress := [catchAllIngress "a" ["tls"], catchAllIngress "b" []]

def sampleController (ings : List Ingress) : LoadBalancerController where
  ingLister := ings
  svcLister := [webService]
  epLister := [webEndpoints]
  secretLister := [tlsSecret]
  cmLister := []
  podLister := []
  nodeLister := []
  defaultSvc := "default/web"
  ngxConfigMap := ""
  defaultTLSSecret := ""
  ingressClass := "nghttpx"
  allowInternalIP := false
  podName := ""
  podNamespace := ""

end NghttpxIngress
