import NghttpxIngress.Api
import Mathlib.Data.List.Sort
import Mathlib.Data.List.Destutter
import Mathlib.Data.List.Lex
import Mathlib.Data.Prod.Lex
import Mathlib.Data.String.Basic

/-!
# The nghttpx package as the controller uses it

`pkg/nghttpx` is not part of the repository. Its types keep the fields the controller
sets. Its helpers are modelled from the spec where the spec describes them; the
certificate checks, the file writes and the annotation parser are parameters (`Env`),
and so is `sort.Slice`, of which only Go's promise is kept: the result is a permutation
of the input ordered by the key, with no promise about ties. Go compares strings
bytewise, which on UTF-8 is the lexicographic order on `String.data`; sort keys are
taken there so that they compute.
-/

namespace NghttpxIngress

structure PortBackendConfig where
  proto : String
  tls : Bool
  sni : String
  dns : Bool
  affinity : String
  deriving DecidableEq

def protocolH2 : String := "h2"

def protocolH1 : String := "http/1.1"

/-- Modelled from the spec: nghttpx.DefaultPortBackendConfig, protocol http/1.1 and
nothing else set. -/
def defaultPortBackendConfig : PortBackendConfig :=
  { proto := protocolH1, tls := false, sni := "", dns := false, affinity := "" }

/-- Modelled from the spec: nghttpx.FixupPortBackendConfig coerces an unrecognized
protocol to http/1.1 (its service and port arguments only name the warning). -/
def fixupPortBackendConfig (config : PortBackendConfig) : PortBackendConfig :=
  if config.proto = protocolH2 ∨ config.proto = protocolH1 then config
  else { config with proto := protocolH1 }

structure UpstreamServer where
  address : String
  port : String
  protocol : String
  tls : Bool
  sni : String
  dns : Bool
  affinity : String
  deriving DecidableEq

/-- Modelled from the spec: nghttpx.NewDefaultServer, the static placeholder backend. -/
def newDefaultServer : UpstreamServer :=
  { address := "127.0.0.1", port := "8181", protocol := protocolH1, tls := false, sni := "",
    dns := false, affinity := "" }

structure Upstream where
  name : String
  host : String
  path : String
  backends : List UpstreamServer
  redirectIfNotTLS : Bool
  deriving DecidableEq

structure ChecksumFile where
  path : String
  content : List UInt8
  deriving DecidableEq

structure TLSCred where
  key : ChecksumFile
  cert : ChecksumFile
  deriving DecidableEq

/-- The fields of nghttpx.IngressConfig that getUpstreamServers sets. -/
structure IngressConfig where
  upstreams : List Upstream
  tls : Bool
  defaultTLSCred : Option TLSCred
  subTLSCred : List TLSCred
  deriving DecidableEq

/-! ## TLS credential identity -/

/-- Modelled from the spec: nghttpx.TLSCredPrefix, a stable identity from the Secret's
namespace and name. -/
def tlsCredPrefix (secret : Secret) : String :=
  secret.meta.ns ++ "_" ++ secret.meta.name

def tlsDir : String := "/etc/nghttpx-tls"

/-- Modelled from the spec: nghttpx.CreateTLSKeyPath. -/
def createTLSKeyPath (pre : String) : String := tlsDir ++ "/" ++ pre ++ ".key"

/-- Modelled from the spec: nghttpx.CreateTLSCertPath. -/
def createTLSCertPath (pre : String) : String := tlsDir ++ "/" ++ pre ++ ".crt"

/-- Modelled from the spec: nghttpx.RemoveDuplicatePems keeps the first credential of
each run with the same `Key.Path`. -/
def removeDuplicatePems (pems : List TLSCred) : List TLSCred :=
  pems.destutter (fun a b => a.key.path ≠ b.key.path)

/-! ## Parameters -/

/-- What Go promises of `sort.Slice` with a less function comparing keys. -/
structure SortSlice where
  sort : {α β : Type} → [LinearOrder β] → (α → β) → List α → List α
  perm : ∀ {α β : Type} [LinearOrder β] (key : α → β) (l : List α), (sort key l).Perm l
  sorted : ∀ {α β : Type} [LinearOrder β] (key : α → β) (l : List α),
    (sort key l).Sorted (fun a b => key a ≤ key b)

/-- Insertion sort, which is what `sort.Slice` runs on at most six elements. -/
def SortSlice.insertion : SortSlice where
  sort key l := l.insertionSort (fun a b => key a ≤ key b)
  perm key l := List.perm_insertionSort _ l
  sorted key l := by
    haveI : IsTotal _ (fun a b => key a ≤ key b) := ⟨fun a b => le_total _ _⟩
    haveI : IsTrans _ (fun a b => key a ≤ key b) := ⟨fun _ _ _ => le_trans⟩
    exact List.sorted_insertionSort _ l

/-- The functions the controller calls whose code is outside the repository and which
the spec does not describe. -/
structure Env where
  sortSlice : SortSlice
  /-- nghttpx.CommonNames: the names of a PEM certificate, failing when it has none. -/
  commonNames : List UInt8 → Except String (List String)
  /-- nghttpx.CheckPrivateKey. -/
  checkPrivateKey : List UInt8 → Except String Unit
  /-- The file writes of nghttpx.CreateTLSCred for a prefix, a certificate and a key. -/
  writeTLSFiles : String → List UInt8 → List UInt8 → Except String Unit
  /-- ingressAnnotation.getBackendConfig: Service name to port to its configuration. -/
  getBackendConfig : List (String × String) → List (String × List (String × PortBackendConfig))

/-- Modelled from the spec: nghttpx.CreateTLSCred writes the key and certificate under
paths named by the prefix and keeps their content for the checksums. -/
def Env.createTLSCred (env : Env) (pre : String) (cert key : List UInt8) :
    Except String TLSCred := do
  env.writeTLSFiles pre cert key
  pure { key := { path := createTLSKeyPath pre, content := key },
         cert := { path := createTLSCertPath pre, content := cert } }

theorem createTLSKeyPath_inj {p q : String} (h : createTLSKeyPath p = createTLSKeyPath q) :
    p = q := by
  simp only [createTLSKeyPath, String.ext_iff, String.data_append, List.append_assoc,
    List.append_cancel_left_eq, List.append_cancel_right_eq] at h
  exact String.ext h

theorem tlsCredPrefix_inj {s t : Secret} (h : tlsCredPrefix s = tlsCredPrefix t) :
    s.meta.ns = t.meta.ns ∧ s.meta.name = t.meta.name :=
  join_inj (underscore_not_mem s.meta.valid) (underscore_not_mem t.meta.valid) h

theorem createTLSCred_key_path {env : Env} {pre : String} {cert key : List UInt8}
    {c : TLSCred} (h : env.createTLSCred pre cert key = .ok c) :
    c.key.path = createTLSKeyPath pre := by
  unfold Env.createTLSCred at h
  cases hw : env.writeTLSFiles pre cert key <;> simp_all [bind, Except.bind, pure, Except.pure]
  cases h
  rfl

end NghttpxIngress
