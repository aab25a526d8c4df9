import TenantAccess.Controller.Basic
import TenantAccess.Settings.Logging
import TenantAccess.Time.DurationReader

/-!
# Settings

Every setting has a default.  `validate` refuses what the controller could not work with.
-/

namespace TenantAccess

def Duration.decode (d : Dialect δ) (j : δ) : Option Duration :=
  (d.text j).bind Duration.ofText?

structure ControllerSettings where
  maxConcurrentReconciles : Nat := 6
  requeueBaseDelay : Duration := .ofMilliseconds 5
  requeueMaxDelay : Duration := .ofSeconds 1000
  acquireTimeout : Duration := .ofSeconds 30
  shutdownGrace : Duration := .ofSeconds 10

namespace ControllerSettings

def decode (d : Dialect δ) (j : δ) : Option ControllerSettings := do
  let default : ControllerSettings := {}
  let fields ← d.record ["max_concurrent_reconciles", "requeue_base_delay", "requeue_max_delay",
    "acquire_timeout", "shutdown_grace"] j
  let span (key : String) (default : Duration) :=
    Dialect.defaulted fields key default (Duration.decode d)
  some {
    maxConcurrentReconciles :=
      ← Dialect.defaulted fields "max_concurrent_reconciles" default.maxConcurrentReconciles d.count
    requeueBaseDelay := ← span "requeue_base_delay" default.requeueBaseDelay
    requeueMaxDelay := ← span "requeue_max_delay" default.requeueMaxDelay
    acquireTimeout := ← span "acquire_timeout" default.acquireTimeout
    shutdownGrace := ← span "shutdown_grace" default.shutdownGrace }

end ControllerSettings

structure OperatorSettings where
  installNamespace : String := "openshift-dbaas-operator"
  createDefaultConfig : Bool := true

namespace OperatorSettings

def decode (d : Dialect δ) (j : δ) : Option OperatorSettings := do
  let default : OperatorSettings := {}
  let fields ← d.record ["install_namespace", "create_default_config"] j
  some {
    installNamespace :=
      ← Dialect.defaulted fields "install_namespace" default.installNamespace d.text
    createDefaultConfig :=
      ← Dialect.defaulted fields "create_default_config" default.createDefaultConfig d.flag }

end OperatorSettings

/-- Where reviews are asked for; nowhere unless there is an endpoint. -/
structure ReviewSettings where
  endpoint : Option String := none
  bearerToken : Option String := none
  timeout : Duration := .ofSeconds 10

namespace ReviewSettings

def decode (d : Dialect δ) (j : δ) : Option ReviewSettings := do
  let default : ReviewSettings := {}
  if !d.fills 2 j then none
  let fields ← d.record ["endpoint", "bearer_token", "timeout"] j
  some {
    endpoint := ← d.optional fields "endpoint" d.text
    bearerToken := ← d.optional fields "bearer_token" d.text
    timeout := ← Dialect.defaulted fields "timeout" default.timeout (Duration.decode d) }

end ReviewSettings

structure Settings where
  controller : ControllerSettings := {}
  operator : OperatorSettings := {}
  accessReview : ReviewSettings := {}
  logging : LoggingSettings := {}

namespace Settings

def decode (d : Dialect δ) (j : δ) : Option Settings := do
  let fields ← d.record ["controller", "operator", "access_review", "logging"] j
  some {
    controller := ← Dialect.defaulted fields "controller" {} (ControllerSettings.decode d)
    operator := ← Dialect.defaulted fields "operator" {} (OperatorSettings.decode d)
    accessReview := ← Dialect.defaulted fields "access_review" {} (ReviewSettings.decode d)
    logging := ← Dialect.defaulted fields "logging" {} (LoggingSettings.decode d) }

/-- The first reason to refuse the settings. -/
def refusal? (s : Settings) : Option Error :=
  let c := s.controller
  if c.maxConcurrentReconciles = 0 then
    some (.configuration "controller.max_concurrent_reconciles must be at least 1")
  else if c.requeueMaxDelay.nanoseconds < c.requeueBaseDelay.nanoseconds then
    some (.configuration ("controller.requeue_base_delay (" ++ c.requeueBaseDelay.text ++
      ") exceeds controller.requeue_max_delay (" ++ c.requeueMaxDelay.text ++ ")"))
  else if s.operator.installNamespace = "" then
    some (.configuration "operator.install_namespace must not be empty")
  else none

def validate (s : Settings) : Except Error Settings :=
  match s.refusal? with
  | some e => .error e
  | none => .ok s

def controllerConfig (s : Settings) : ControllerConfig where
  maxConcurrentReconciles := s.controller.maxConcurrentReconciles
  requeueBaseDelay := s.controller.requeueBaseDelay
  requeueMaxDelay := s.controller.requeueMaxDelay
  acquireTimeout := s.controller.acquireTimeout
  shutdownGrace := s.controller.shutdownGrace
  installNamespace := s.operator.installNamespace
  createDefaultConfig := s.operator.createDefaultConfig

end Settings

end TenantAccess
