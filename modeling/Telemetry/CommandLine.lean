import Telemetry.Agent.Agent
import Telemetry.Collector.Collector

/-!
# Command line

Both programs take the same options: a configuration file, a switch for more logging, and one to check
the configuration only.  Arguments are read from left to right; the first one that is wrong, or asks for
help or the version, decides.
-/

namespace Telemetry

inductive Program where
  | agent
  | collector
  deriving DecidableEq, Repr

namespace Program

def name : Program → String
  | agent => "symon"
  | collector => "symux"

def ofName? (name : String) : Option Program :=
  [agent, collector].find? fun p => p.name == name

def about : Program → String
  | agent => "Sample local system streams and ship them to symux"
  | collector => "Collect symon datagrams, write series and relay them to clients"

def defaultConfig : Program → FilePath
  | agent => "/etc/symon.toml"
  | collector => "/etc/symux.toml"

def versionText (p : Program) : String :=
  s!"{p.name} 0.1.0\n"

def helpText (p : Program) : String :=
  String.join
    [p.about, "\n\nUsage: ", p.name, " [OPTIONS]\n\nOptions:\n",
      "  -c, --config <CONFIG>  Configuration file [default: ", p.defaultConfig, "]\n",
      "  -d, --debug            Debug logging\n",
      "  -t, --test             Check the configuration and exit\n",
      "  -h, --help             Print help\n",
      "  -V, --version          Print version\n"]

end Program

/-! ## Options -/

structure Options where
  config : Option FilePath
  debug : Bool
  test : Bool
  deriving DecidableEq, Repr

inductive Request where
  | run (o : Options)
  | help
  | version
  | misuse
  deriving DecidableEq, Repr

namespace Options

def none : Options := ⟨.none, false, false⟩

/-- The options after one argument, or the request that ends the reading. -/
abbrev Next := Except Request Options

/-- Name the configuration file; once only, and not by the empty path. -/
def setConfig (o : Options) (path : String) : Next :=
  if path.isEmpty || o.config.isSome then .error .misuse else .ok { o with config := some path }

def setDebug (o : Options) : Next :=
  if o.debug then .error .misuse else .ok { o with debug := true }

def setTest (o : Options) : Next :=
  if o.test then .error .misuse else .ok { o with test := true }

/-- Whether the next argument can be the value of an option: it is a lone hyphen or starts with
none. -/
def isValue (s : String) : Bool :=
  s == "-" || s.toList.head? != some '-'

/-- Read the letters of a group of short options; what follows a `c` is its value.  The answer tells
whether the value is still to come. -/
def readShort (o : Options) : List Char → Except Request (Bool × Options)
  | [] => .ok (false, o)
  | 'd' :: rest => o.setDebug >>= fun o => o.readShort rest
  | 't' :: rest => o.setTest >>= fun o => o.readShort rest
  | 'h' :: _ => .error .help
  | 'V' :: _ => .error .version
  | ['c'] => .ok (true, o)
  | 'c' :: '=' :: value => (o.setConfig (String.ofList value)).map fun o => (false, o)
  | 'c' :: value => (o.setConfig (String.ofList value)).map fun o => (false, o)
  | _ => .error .misuse

def readLong (o : Options) (body : List Char) : Except Request (Bool × Options) :=
  let name := String.ofList (body.takeWhile (· != '='))
  match body.dropWhile (· != '='), name with
  | [], "config" => .ok (true, o)
  | _ :: value, "config" => (o.setConfig (String.ofList value)).map fun o => (false, o)
  | [], "debug" => o.setDebug.map fun o => (false, o)
  | [], "test" => o.setTest.map fun o => (false, o)
  | [], "help" => .error .help
  | [], "version" => .error .version
  | _, _ => .error .misuse

def readOne (o : Options) (argument : String) : Except Request (Bool × Options) :=
  match argument.toList with
  | '-' :: '-' :: body => o.readLong body
  | '-' :: letter :: letters => o.readShort (letter :: letters)
  | _ => .error .misuse

/-- Read arguments; with `pending` the first of them is to be the name of the configuration file. -/
def readAll (o : Options) (pending : Bool) : List String → Request
  | [] => if pending then .misuse else .run o
  | argument :: rest =>
      if pending then
        -- the value of an option must not look like an option
        if isValue argument then
          match o.setConfig argument with
          | .ok o => o.readAll false rest
          | .error request => request
        else .misuse
      -- nothing may stand behind the end of the options
      else if argument == "--" then
        if rest.isEmpty then .run o else .misuse
      else
        match o.readOne argument with
        | .ok (pending, o) => o.readAll pending rest
        | .error request => request

end Options

def Request.ofArguments (arguments : List String) : Request :=
  Options.none.readAll false arguments

/-! ## Starting -/

/-- What goes on after a start. -/
inductive Service where
  | agent (a : Agent)
  | collector (c : Collector)

/-- How a start turns out: at its end, with what it prints and its status, or in a service. -/
inductive Start where
  | ended (output : String) (status : Nat)
  | running (service : Service)

namespace Start

def output : Start → String
  | ended output _ => output
  | running _ => ""

/-- The status of a start that came to its end. -/
def status? : Start → Option Nat
  | ended _ status => some status
  | running _ => none

end Start

namespace Program

/-- Load the configuration of a program and go to work on it, unless it is only to be checked. -/
def begin (p : Program) (r : Resolver) (m : Machine) (path : FilePath) (test : Bool) : Start :=
  match p with
  | agent =>
      match Handle.load r m.files path 0 with
      | .error _ => .ended "" 1
      | .ok handle =>
          if test then .ended "" 0
          else
            match Agent.start Connector.always handle ProbeSet.bundled with
            | none => .ended "" 1
            | some a => .running (.agent a)
  | collector =>
      match Handle.load r m.files path 0 with
      | .error _ => .ended "" 1
      | .ok handle =>
          if test then .ended "" 0
          else
            match (Collector.bind m handle).1 with
            | .error _ => .ended "" 1
            | .ok c => .running (.collector c)

def start (p : Program) (r : Resolver) (m : Machine) (arguments : List String) : Start :=
  match Request.ofArguments arguments with
  | .help => .ended p.helpText 0
  | .version => .ended p.versionText 0
  | .misuse => .ended "" 2
  | .run o => p.begin r m (o.config.getD p.defaultConfig) o.test

end Program
end Telemetry
