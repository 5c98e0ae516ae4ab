namespace ExpressionLanguage

inductive Emit where
  | value | tokens | tree
deriving DecidableEq, Repr

def Emit.ofName? : String → Option Emit
  | "value" => some .value
  | "tokens" => some .tokens
  | "ast" => some .tree
  | _ => none

structure Options where
  file : Bool
  emit : Option Emit
  verbosity : Nat
  contents : Option String
deriving DecidableEq, Repr

inductive Command where
  | version
  | usageError
  | run (options : Options)
deriving DecidableEq, Repr

namespace Options

def initial : Options :=
  ⟨false, none, 0, none⟩

def setFile? (o : Options) : Option Options :=
  if o.file then none else some { o with file := true }

def countVerbose (o : Options) : Options :=
  { o with verbosity := o.verbosity + 1 }

def setEmit? (o : Options) (name : String) : Option Options :=
  match o.emit with
  | some _ => none
  | none => (Emit.ofName? name).map fun e => { o with emit := some e }

def setContents? (o : Options) (contents : String) : Option Options :=
  match o.contents with
  | some _ => none
  | none => some { o with contents := some contents }

def finish (o : Options) : Command :=
  if o.file && o.contents.isNone then .usageError else .run o

end Options

inductive Step where
  | next (options : Options)
  | awaitEmit (options : Options)
  | stop (command : Command)

namespace Step

def ofOption : Option Options → Step
  | some o => next o
  | none => stop .usageError

end Step

namespace Command

/-- Reads the letters of a cluster of short options. The rest of a cluster behind `e` is its value,
with or without an equals sign. -/
def readShort (o : Options) : List Char → Step
  | [] => .next o
  | 'v' :: rest => readShort o.countVerbose rest
  | 'V' :: _ => .stop .version
  | 'f' :: rest =>
      match o.setFile? with
      | some o' => readShort o' rest
      | none => .stop .usageError
  | ['e'] => .awaitEmit o
  | 'e' :: '=' :: value => .ofOption (o.setEmit? (String.ofList value))
  | 'e' :: value => .ofOption (o.setEmit? (String.ofList value))
  | _ => .stop .usageError

def readLong (o : Options) (argument : List Char) : Step :=
  let name := String.ofList (argument.takeWhile (· != '='))
  match name, argument.dropWhile (· != '=') with
  | "file", [] => .ofOption o.setFile?
  | "verbose", [] => .next o.countVerbose
  | "version", [] => .stop .version
  | "emit", [] => .awaitEmit o
  | "emit", _ :: value => .ofOption (o.setEmit? (String.ofList value))
  | _, _ => .stop .usageError

def readArgument (o : Options) (argument : String) : Step :=
  match argument.toList with
  | '-' :: '-' :: long => readLong o long
  | '-' :: letter :: letters => readShort o (letter :: letters)
  | _ => .ofOption (o.setContents? argument)

def readPlain : Options → List String → Command
  | o, [] => o.finish
  | o, argument :: rest =>
      match o.setContents? argument with
      | some o' => readPlain o' rest
      | none => .usageError

def read : Options → List String → Command
  | o, [] => o.finish
  | o, argument :: rest =>
      if argument = "--" then readPlain o rest
      else
        match readArgument o argument with
        | .next o' => read o' rest
        | .stop command => command
        | .awaitEmit o' =>
            match rest with
            | [] => .usageError
            | name :: rest' =>
                match o'.setEmit? name with
                | some o'' => read o'' rest'
                | none => .usageError

def ofArguments (arguments : List String) : Command :=
  read .initial arguments

end Command

end ExpressionLanguage
