import ServiceKit.Observe.Telemetry
import ServiceKit.Service
import ServiceKit.Json.Printer

namespace ServiceKit.Config
open Observe (LogFormat)

inductive Kind where
  | text
  | number (most : Nat)
  | flag
  | optional
  | format
deriving DecidableEq, Repr

abbrev Kind.Value : Kind → Type
  | .text => String
  | .number _ => Nat
  | .flag => Bool
  | .optional => Option String
  | .format => LogFormat

inductive Key where
  | name | env | container | version
  | port | apiTimeout | readTimeout | writeTimeout | maxHeaderBytes | maxBodyBytes | secureHeaders
  | certFile | keyFile | notifyStatus
  | slackWebhook | slackInfoWebhook | telegramToken | telegramChat
  | logLevel | logFormat
  | metricsEnabled | metricsAddress
  | workers
deriving DecidableEq, Repr

namespace Key

def all : List Key :=
  [.name,.env,.container,.version,.port,.apiTimeout,.readTimeout,.writeTimeout,.maxHeaderBytes,
   .maxBodyBytes,.secureHeaders,.certFile,.keyFile,.notifyStatus,.slackWebhook,.slackInfoWebhook,
   .telegramToken,.telegramChat,.logLevel,.logFormat,.metricsEnabled,.metricsAddress,.workers]

theorem mem_all (k : Key) : k ∈ all := by cases k <;> decide

def word : Nat := Nat.pow 2 64 - 1

abbrev kind : Key → Kind
  | .name | .env | .container | .version | .logLevel | .metricsAddress => .text
  | .port => .number 65535
  | .apiTimeout | .readTimeout | .writeTimeout | .maxHeaderBytes | .maxBodyBytes | .workers => .number word
  | .secureHeaders | .notifyStatus | .metricsEnabled => .flag
  | .certFile | .keyFile | .slackWebhook | .slackInfoWebhook | .telegramToken | .telegramChat => .optional
  | .logFormat => .format

def varName : Key → String
  | .name => "APP_NAME"
  | .env => "APPS_ENV"
  | .container => "CONTAINER_NAME"
  | .version => "APP_VERSION"
  | .port => "APP_PORT"
  | .apiTimeout => "API_TIMEOUT"
  | .readTimeout => "SERVER_READ_TIMEOUT"
  | .writeTimeout => "SERVER_WRITE_TIMEOUT"
  | .maxHeaderBytes => "SERVER_MAX_HEADER_BYTES"
  | .maxBodyBytes => "SERVER_MAX_BODY_BYTES"
  | .secureHeaders => "SECURE_HEADERS"
  | .certFile => "TLS_CERT_FILE"
  | .keyFile => "TLS_KEY_FILE"
  | .notifyStatus => "NOTIFY_SERVICE_STATUS"
  | .slackWebhook => "NOTIFICATIONS_SLACK_WEBHOOK_URL"
  | .slackInfoWebhook => "NOTIFICATION_SLACK_INFO_WEBHOOK"
  | .telegramToken => "NOTIFICATIONS_TELEGRAM_TOKEN"
  | .telegramChat => "NOTIFICATIONS_TELEGRAM_CHAT_ID"
  | .logLevel => "LOG_LEVEL"
  | .logFormat => "LOG_FORMAT"
  | .metricsEnabled => "METRICS_ENABLED"
  | .metricsAddress => "METRICS_ADDR"
  | .workers => "IMPORT_WORKERS"

def sectionName : Key → String
  | .name | .env | .container | .version => "app"
  | .port | .apiTimeout | .readTimeout | .writeTimeout | .maxHeaderBytes | .maxBodyBytes | .secureHeaders
  | .certFile | .keyFile | .notifyStatus => "server"
  | .slackWebhook | .slackInfoWebhook | .telegramToken | .telegramChat => "notifications"
  | .logLevel | .logFormat => "logging"
  | .metricsEnabled | .metricsAddress => "metrics"
  | .workers => "import"

def entry : Key → String
  | .name => "name"
  | .env => "env"
  | .container => "container"
  | .version => "version"
  | .port => "port"
  | .apiTimeout => "api_timeout_secs"
  | .readTimeout => "read_timeout_secs"
  | .writeTimeout => "write_timeout_secs"
  | .maxHeaderBytes => "max_header_bytes"
  | .maxBodyBytes => "max_body_bytes"
  | .secureHeaders => "secure_headers"
  | .certFile => "tls_cert_file"
  | .keyFile => "tls_key_file"
  | .notifyStatus => "notify_service_status"
  | .slackWebhook => "slack_webhook_url"
  | .slackInfoWebhook => "slack_info_webhook"
  | .telegramToken => "telegram_token"
  | .telegramChat => "telegram_chat_id"
  | .logLevel => "level"
  | .logFormat => "format"
  | .metricsEnabled => "enabled"
  | .metricsAddress => "addr"
  | .workers => "workers"

def default : (k : Key) → k.kind.Value
  | .name => "trellis"
  | .env => "development"
  | .container => ""
  | .version => "0.1.0"
  | .port => (8080 : Nat)
  | .apiTimeout => (3 : Nat)
  | .readTimeout | .writeTimeout | .workers => (10 : Nat)
  | .maxHeaderBytes => (1048576 : Nat)
  | .maxBodyBytes => (33554432 : Nat)
  | .secureHeaders => true
  | .notifyStatus | .metricsEnabled => false
  | .certFile | .keyFile | .slackWebhook | .slackInfoWebhook | .telegramToken | .telegramChat =>
    (none : Option String)
  | .logLevel => "info"
  | .logFormat => LogFormat.json
  | .metricsAddress => "0.0.0.0:9090"

def ofVariable? (name : String) : Option Key := all.find? fun k => k.varName == name

def sections : List String := (all.map sectionName).eraseDups

def ofSection (s : String) : List Key := all.filter fun k => k.sectionName == s

def ofEntry? (s e : String) : Option Key := (ofSection s).find? fun k => k.entry == e

end Key

end Config

abbrev Config := (k : Config.Key) → k.kind.Value

namespace Config

def defaults : Config := Key.default

def set (c : Config) (k : Key) (v : k.kind.Value) : Config :=
  fun k' => if same : k = k' then same ▸ v else c k'

theorem set_same (c : Config) (k : Key) (v : k.kind.Value) : c.set k v k = v := by
  simp [set]

theorem set_other (c : Config) {k k' : Key} (v : k.kind.Value) (different : k ≠ k') :
    c.set k v k' = c k' := by
  simp [set,different]

def Kind.json : (k : Kind) → k.Value → Json
  | .text,v => .string v
  | .number _,v => .nat v
  | .flag,v => .bool v
  | .optional,v => .ofOption (v.map Json.string)
  | .format,v => .string v.name

def sectionJson (c : Config) (s : String) : Json :=
  .object ((Key.ofSection s).map fun k => (k.entry,k.kind.json (c k)))

def toJson (c : Config) : Json :=
  .object (Key.sections.map fun s => (s,c.sectionJson s))

def service (c : Config) : Service := ⟨c .name,c .env,c .container,c .version⟩

def tlsEnabled (c : Config) : Bool := (c .certFile).isSome && (c .keyFile).isSome

def log (c : Config) : Observe.LogSettings :=
  { Observe.LogSettings.production with level := c .logLevel,format := c .logFormat }

-- What a configuration must meet, in the order in which it is checked.
inductive Fault where
  | apiTimeout | maxHeaderBytes | maxBodyBytes | workers | tlsFiles
deriving DecidableEq, Repr

namespace Fault

def all : List Fault := [.apiTimeout,.maxHeaderBytes,.maxBodyBytes,.workers,.tlsFiles]

def Holds (c : Config) : Fault → Prop
  | .apiTimeout => c .apiTimeout = (0 : Nat)
  | .maxHeaderBytes => c .maxHeaderBytes = (0 : Nat)
  | .maxBodyBytes => c .maxBodyBytes = (0 : Nat)
  | .workers => c .workers = (0 : Nat)
  | .tlsFiles => (c .certFile).isSome ≠ (c .keyFile).isSome

instance (c : Config) : (f : Fault) → Decidable (f.Holds c)
  | .apiTimeout => inferInstanceAs (Decidable (c .apiTimeout = (0 : Nat)))
  | .maxHeaderBytes => inferInstanceAs (Decidable (c .maxHeaderBytes = (0 : Nat)))
  | .maxBodyBytes => inferInstanceAs (Decidable (c .maxBodyBytes = (0 : Nat)))
  | .workers => inferInstanceAs (Decidable (c .workers = (0 : Nat)))
  | .tlsFiles => inferInstanceAs (Decidable ((c .certFile).isSome ≠ (c .keyFile).isSome))

def message : Fault → String
  | .apiTimeout => "api_timeout_secs must be greater than zero"
  | .maxHeaderBytes => "max_header_bytes must be greater than zero"
  | .maxBodyBytes => "max_body_bytes must be greater than zero"
  | .workers => "import.workers must be greater than zero"
  | .tlsFiles => "tls_cert_file and tls_key_file must be set together"

end Fault

def fault? (c : Config) : Option Fault := Fault.all.find? fun f => decide (f.Holds c)

inductive ConfigError where
  | notFound (path : String)
  | unreadable (path : String)
  | file (message : String)
  | dotEnv (message : String)
  | badVariable (name reason : String)
  | invalid (message : String)
deriving DecidableEq, Repr

namespace ConfigError

def message : ConfigError → String
  | .notFound path => "configuration file not found: " ++ path
  | .unreadable path => "failed to read configuration file: " ++ path
  | .file m => "failed to parse TOML configuration: " ++ m
  | .dotEnv m => "failed to load .env file: " ++ m
  | .badVariable name reason => "failed to parse environment variable " ++ name ++ ": " ++ reason
  | .invalid m => "configuration validation failed: " ++ m

def kind : ConfigError → String
  | .notFound _ => "FileNotFound"
  | .unreadable _ => "ReadError"
  | .file _ => "TomlError"
  | .dotEnv _ => "DotEnv"
  | .badVariable .. => "EnvParseError"
  | .invalid _ => "ValidationError"

end ConfigError

def validate (c : Config) : Except ConfigError Unit :=
  match c.fault? with
  | some f => .error (.invalid f.message)
  | none => .ok ()

end Config
end ServiceKit
