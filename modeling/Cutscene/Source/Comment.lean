namespace Cutscene.Source

/-- Both marks of a comment go with it. A backslash covers the next character, inside comments too;
outside it is kept for the tokens. -/
def stripFrom (inside escaped : Bool) : List Char → List Char
  | [] => []
  | c :: cs =>
      if escaped then
        if inside then stripFrom inside false cs else c :: stripFrom inside false cs
      else if c = '\\' then
        if inside then stripFrom inside true cs else c :: stripFrom inside true cs
      else if c = '#' then stripFrom (!inside) false cs
      else if inside then stripFrom inside false cs
      else c :: stripFrom inside false cs

def strip (cs : List Char) : List Char := stripFrom false false cs

end Cutscene.Source
