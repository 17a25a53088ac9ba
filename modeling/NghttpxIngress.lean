import NghttpxIngress.Api
import NghttpxIngress.Nghttpx
import NghttpxIngress.Controller
import NghttpxIngress.Canonical
import NghttpxIngress.Endpoints
import NghttpxIngress.ReferenceIndex
import NghttpxIngress.Determinism
import NghttpxIngress.Lifecycle
import NghttpxIngress.LifecycleRuns
import NghttpxIngress.Process
import NghttpxIngress.StatusLoop
import NghttpxIngress.StatusRuns
