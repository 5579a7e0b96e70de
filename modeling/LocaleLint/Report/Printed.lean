import LocaleLint.Report.Buckets
import LocaleLint.Text.Ansi

/-! # The printed form of a report

A block of lines for each file: an empty line, a heading in red, and for each violated rule its
description and one bullet for each key. -/

namespace LocaleLint.Report

open Text

/-- A text as a line. -/
def line (s : List Char) : List Char := s ++ ['\n']

def heading (filename : String) : List Char := red ("Errors in ".toList ++ filename.toList)

def descriptionLine (s : String) : List Char := line (' ' :: ' ' :: s.toList)

def bullet (key : String) : List Char := line ("    * ".toList ++ key.toList)

def ruleLines (rule : Rule) (keys : List String) : List (List Char) :=
  rule.description.map descriptionLine ++ keys.map bullet

/-- The lines of the block of a file with the rules that it violates. -/
def lines (filename : String) (violations : List (Rule × List String)) : List (List Char) :=
  line [] :: line (heading filename) :: violations.flatMap fun entry => ruleLines entry.1 entry.2

def block (filename : String) (violations : List (Rule × List String)) : List Char :=
  (lines filename violations).flatten

end LocaleLint.Report
