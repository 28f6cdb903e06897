import Symbolication.Address
import Symbolication.Symbolizer

/-!
The command line: options that name binaries and choose the layout, and addresses to resolve. The
whole run is a function from arguments and files to what is printed.
-/

namespace Symbolication.CommandLine

structure Options where
  binaries : List String
  functions : Bool
  baseNames : Bool
  addresses : List String
deriving DecidableEq, Repr

/-- One argument, or one option of a cluster, with what it changes. -/
inductive Token where
  | binary (path : String)
  | functions
  | baseNames
  | address (text : String)
deriving DecidableEq, Repr

/-- Whether an argument stands where only an option may. A lone dash is an ordinary value. -/
def looksLikeOption (argument : String) : Bool :=
  match argument.toList with
  | '-' :: _ :: _ => true
  | _ => false

/-- What a cluster of short options still needs: nothing, or a value from the next argument. -/
inductive Cluster where
  | complete (tokens : List Token)
  | needsValue (tokens : List Token)
deriving DecidableEq, Repr

def Cluster.cons (token : Token) : Cluster → Cluster
  | complete tokens => complete (token :: tokens)
  | needsValue tokens => needsValue (token :: tokens)

/-- The short options after a dash. The rest of a cluster behind the option of binaries is its
value, with one equals sign in front dropped. -/
def cluster? : List Char → Option Cluster
  | [] => some (.complete [])
  | 'f' :: rest => (cluster? rest).map (.cons .functions)
  | 's' :: rest => (cluster? rest).map (.cons .baseNames)
  | ['e'] => some (.needsValue [])
  | 'e' :: '=' :: value => some (.complete [.binary (String.ofList value)])
  | 'e' :: value => some (.complete [.binary (String.ofList value)])
  | _ => none

/-- A long option behind its dashes. -/
def long? (name : List Char) : Option Cluster :=
  if name = "functions".toList then some (.complete [.functions])
  else if name = "basenames".toList then some (.complete [.baseNames])
  else if name = "exe".toList then some (.needsValue [])
  else
    match name with
    | 'e' :: 'x' :: 'e' :: '=' :: value => some (.complete [.binary (String.ofList value)])
    | _ => none

/-- An argument by itself, unless it is the mark that ends the options. -/
def argument? (argument : String) : Option Cluster :=
  match argument.toList with
  | '-' :: '-' :: name => long? name
  | '-' :: letter :: letters => cluster? (letter :: letters)
  | _ => some (.complete [.address argument])

/-- The arguments as tokens. Answers `none` for an option that does not exist or lacks its value. -/
def tokens? : List String → Option (List Token)
  | [] => some []
  | argument :: rest =>
      if argument = "--" then some (rest.map .address)
      else
        match argument? argument with
        | none => none
        | some (.complete tokens) => (tokens? rest).map (tokens ++ ·)
        | some (.needsValue tokens) =>
            match rest with
            | [] => none
            | value :: others =>
                if looksLikeOption value then none
                else (tokens? others).map (tokens ++ .binary value :: ·)

/-- The options of some tokens. At least one binary is needed, none may be empty, and a switch may
be given once. -/
def options? (tokens : List Token) : Option Options :=
  let binaries := tokens.filterMap fun
    | .binary path => some path
    | _ => none
  let addresses := tokens.filterMap fun
    | .address text => some text
    | _ => none
  if binaries.isEmpty || binaries.contains "" || 1 < tokens.count .functions ||
      1 < tokens.count .baseNames then
    none
  else
    some {
      binaries
      functions := tokens.contains .functions
      baseNames := tokens.contains .baseNames
      addresses }

def parse? (arguments : List String) : Option Options := (tokens? arguments).bind options?

/-- The lines for an address: the function if asked for, then file and line, with question marks for
what is unknown. -/
def layout (options : Options) (location? : Option Location) : String :=
  let functionLine :=
    if options.functions then ((location?.bind (·.function)).getD "??") ++ "\n" else ""
  let place :=
    match location? with
    | some location =>
        let file := if options.baseNames then Path.baseName location.file else location.file
        file ++ ":" ++ toString location.line.toNat
    | none => "??:0"
  functionLine ++ place ++ "\n"

structure Outcome where
  code : UInt32
  output : String
  errors : String
deriving DecidableEq, Repr

section Runs

variable [LinkageNames]

/-- Resolves addresses in order. Text that is no address is reported and passed over. -/
def resolveAll (options : Options) : Symbolizer → List String → String × String
  | _, [] => ("", "")
  | symbolizer, text :: rest =>
      match Address.parse? text with
      | none =>
          let (output, errors) := resolveAll options symbolizer rest
          (output, Address.invalidMessage text ++ "\n" ++ errors)
      | some address =>
          let (location?, symbolizer) := symbolizer.resolve address
          let (output, errors) := resolveAll options symbolizer rest
          (layout options location? ++ output, errors)

def runOptions (read? : String → Option Bytes) (options : Options) : Outcome :=
  let symbolizer := Symbolizer.ofPaths read? options.binaries
  if symbolizer.isEmpty then
    { code := 1, output := "", errors := "Error: none of the given binaries could be loaded\n" }
  else
    let (output, errors) := resolveAll options symbolizer options.addresses
    { code := 0, output, errors }

def usage : String :=
  "usage: [-f] [-s] -e BINARY... [ADDRESS...]\n"

def run (read? : String → Option Bytes) (arguments : List String) : Outcome :=
  match parse? arguments with
  | none => { code := 2, output := "", errors := usage }
  | some options => runOptions read? options

end Runs

end Symbolication.CommandLine
