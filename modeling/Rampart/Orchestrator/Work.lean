import Rampart.Orchestrator.AlertSync
import Rampart.Orchestrator.Bootstrap
import Rampart.Orchestrator.Deployment

/-!
# The work of the orchestrator

What each job does, for the scheduler.
-/

namespace Rampart.Orchestrator

/-- An attempt of a job. -/
def handle (job : Job) (_attempt : Nat) : Task Orchestrator Unit :=
  match job with
  | .sync firewall generation => Deploy.sync firewall generation
  | .applyDecisions firewall rule => Deploy.applyDecisions firewall rule
  | .removeDecisions server decisions => Deploy.removeDecisions server decisions
  | .provision firewall => Deploy.provision firewall
  | .reloadBouncers server => Deploy.reloadBouncers server
  | .install server component ticket => Bootstrap.install server component ticket
  | .validate server round => Bootstrap.validate server round
  | .syncAlerts => .ofProcess (AlertSync.pull.bind fun _ => .done (.ok ()))

/-- What follows when a job has failed for good. -/
def failed (job : Job) (failure : Failure) : Process Orchestrator Unit :=
  match job with
  | .install server component ticket => Bootstrap.installFailed server component ticket failure
  | _ => .done ()

/-- The jobs of the orchestrator. -/
def works : Works Orchestrator Job where
  scheduler := (·.scheduler)
  setScheduler scheduler s := { s with scheduler }
  count := tick
  name := Job.name
  handle := handle
  failed := failed

/-- Give the scheduler the job that pulls alerts. -/
def dispatchAlertSync (s : Orchestrator) : Orchestrator :=
  s.dispatch .syncAlerts .default 0 .single

end Rampart.Orchestrator
