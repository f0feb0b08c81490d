import ExprLang.Eval.Program

namespace ExprLang

inductive Command
  | help
  | version
  | text (limit : Nat) (source : String)
  | file (limit : Nat) (path : String)

structure Response where
  exitCode : UInt32
  out : String
  err : String

namespace Command

structure Options where
  file : Bool
  limit : Option Nat
  contents : Option String

namespace Options

def none : Options := ⟨false, .none, .none⟩

def withFile? (o : Options) : Option Options := if o.file then .none else some { o with file := true }

def readLimit? (s : List Char) : Option Nat :=
  let ds := match s with
    | '+' :: ds => ds
    | ds => ds
  if !ds.isEmpty && ds.all Char.isDigit then Text.readBelow? UInt64.size ds else .none

def withLimit? (o : Options) (s : List Char) : Option Options :=
  if o.limit.isSome then .none else (readLimit? s).map fun n => { o with limit := some n }

def withContents? (o : Options) (s : String) : Option Options :=
  if o.contents.isSome then .none else some { o with contents := some s }

def command? (o : Options) : Option Command :=
  o.contents.map fun s =>
    let limit := o.limit.getD defaultLimit
    if o.file then .file limit s else .text limit s

end Options

def letter? (o : Options) : Char → Option (Command ⊕ Options)
  | 'f' => o.withFile?.map .inr
  | 'V' => some (.inl version)
  | 'h' => some (.inl help)
  | _ => none

def letters? (o : Options) : List Char → Option (Command ⊕ Options)
  | [] => some (.inr o)
  | c :: cs =>
    match letter? o c with
    | some (.inr o) => letters? o cs
    | r => r

def word? (o : Options) (name : String) : Option (Command ⊕ Options) :=
  match name with
  | "file" => o.withFile?.map .inr
  | "version" => some (.inl version)
  | "help" => some (.inl help)
  | _ => none

def isOption (arg : String) : Bool :=
  match arg.toList with
  | '-' :: _ :: _ => true
  | _ => false

def ofArguments? (o : Options) : List String → Option Command
  | [] => o.command?
  | "--" :: args => (args.foldlM Options.withContents? o).bind Options.command?
  | "--max-call-depth" :: args =>
    match args with
    | [] => none
    | arg :: args =>
      if isOption arg then none else (o.withLimit? arg.toList).bind (ofArguments? · args)
  | arg :: args =>
    match arg.toList with
    | '-' :: '-' :: name =>
      match name.dropWhile (· != '=') with
      | [] => (word? o (String.ofList name)).bind fun
        | .inl c => some c
        | .inr o => ofArguments? o args
      | _ :: value =>
        if name.takeWhile (· != '=') = "max-call-depth".toList then
          (o.withLimit? value).bind (ofArguments? · args)
        else none
    | '-' :: c :: cs => (letters? o (c :: cs)).bind fun
      | .inl c => some c
      | .inr o => ofArguments? o args
    | _ => (o.withContents? arg).bind (ofArguments? · args)

def path? : Command → Option String
  | file _ path => some path
  | _ => none

end Command

namespace Response

def usage : String :=
  "Usage: mexpr [-f|--file] [--max-call-depth N] CONTENTS\n"

def ofSource (limit : Nat) (source : String) : Response :=
  match run limit source with
  | .ok v => ⟨0, v.render ++ "\n", ""⟩
  | .error e => ⟨1, "", e.message ++ "\n"⟩

def ofCommand (text : Option String) : Command → Response
  | .help => ⟨0, usage, ""⟩
  | .version => ⟨0, "mexpr 0.1.0\n", ""⟩
  | .text limit source => ofSource limit source
  | .file limit path =>
    match text with
    | some source => ofSource limit source
    | none =>
      ⟨1, "", "Failed to read the input file '" ++ path ++ "'. Perhaps this file does not exist?\n"⟩

def refusal : Response := ⟨2, "", usage⟩

end Response

end ExprLang
