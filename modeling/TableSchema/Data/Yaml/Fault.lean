import TableSchema.Data.Yaml.Moment

/-! What can be wrong with a YAML text: its form, or a single value that it writes. -/

namespace TableSchema.Data.Yaml

inductive FormFault where
  /-- A character that no YAML text may hold. -/
  | unprintable
  /-- A character that starts no token, or a token that may not stand at its place. -/
  | misplaced
  | unclosed
  | noColon
  | badEscape
  /-- The name of an anchor or a tag, a directive or the head of a block scalar is wrong. -/
  | badHead
  /-- An anchor is not known, or known already. -/
  | badAnchor
  /-- A scalar, a key or a tag that stands for no value. -/
  | noValue
  | tooDeep
  deriving DecidableEq, Repr

inductive ValueFault where
  /-- An escape for a code point beyond the last one. -/
  | codePoint
  /-- What is written is no number to the base. -/
  | badDigits (base : Nat) (text : String)
  | tooManyDigits (digits : Nat)
  | notFloat (text : String)
  | moment (fault : MomentFault)
  /-- What a reader says in its own words. -/
  | other (message : String)
  deriving DecidableEq, Repr

def ValueFault.message : ValueFault → String
  | .codePoint => "chr() arg not in range(0x110000)"
  | .badDigits base text => Text.malformedMessage base text
  | .tooManyDigits digits => Text.tooLongMessage digits
  | .notFloat text => s!"could not convert string to float: {Text.display text}"
  | .moment fault => fault.message
  | .other message => message

inductive Fault where
  | form (fault : FormFault)
  | value (fault : ValueFault)
  /-- An escape for a number that is too large to be a code point at all. -/
  | escapeOverflow
  deriving DecidableEq, Repr

end TableSchema.Data.Yaml
