import Cutscene.Instruction

namespace Cutscene.Source

inductive SyntaxError where
  | badNumber (literal : String) (kind : Kind)
  | unterminatedString
  | unterminatedChar
  | emptyChar
  deriving DecidableEq, Repr

def SyntaxError.message : SyntaxError → String
  | .badNumber literal kind => "cannot convert '" ++ literal ++ "' to " ++ kind.name
  | .unterminatedString => "unterminated string literal"
  | .unterminatedChar => "unterminated char literal"
  | .emptyChar => "empty char literal"

inductive Token where
  | plain (word : List Char)
  | quoted (text : List Char)
  | char (value : Char)
  deriving DecidableEq, Repr

inductive Context where
  | plain
  | quoted
  | char
  deriving DecidableEq, Repr

def flush (word : List Char) (tokens : List Token) : List Token :=
  if word = [] then tokens else .plain word.reverse :: tokens

def scan (context : Context) (escaped : Bool) (word : List Char) :
    List Char → Except SyntaxError (List Token)
  | [] =>
      match context with
      | .plain => .ok (flush word [])
      | .quoted => .error .unterminatedString
      | .char => .error .unterminatedChar
  | c :: cs =>
      if !escaped && c == '\\' then scan context true word cs
      else
        match context with
        | .plain =>
            if !escaped && c == '"' then (scan .quoted false [] cs).map (flush word)
            else if !escaped && c == '\'' then (scan .char false [] cs).map (flush word)
            else if !escaped && c == ' ' then (scan .plain false [] cs).map (flush word)
            else scan .plain false (c :: word) cs
        | .quoted =>
            if !escaped && c == '"' then
              (scan .plain false [] cs).map (.quoted word.reverse :: ·)
            else scan .quoted false (c :: word) cs
        | .char =>
            if !escaped && c == '\'' then
              match word.getLast? with
              | none => .error .emptyChar
              | some value => (scan .plain false [] cs).map (.char value :: ·)
            else scan .char false (c :: word) cs

def tokenize (cs : List Char) : Except SyntaxError (List Token) := scan .plain false [] cs

end Cutscene.Source
