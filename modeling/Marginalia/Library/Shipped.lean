import Marginalia.Text.Basic

/-
The templates that come with the program, by the names of their files.
-/
namespace Marginalia
namespace Shipped

/-- A quotation with the page below, groups divided by a rule. -/
def blockquote : List String :=
  ["---\n",
    "description: Plain blockquote with the page below, groups separated by a rule\n",
    "---\n",
    "\x7b\x7b#isFirstInChapter\x7d\x7d## \x7b\x7bchapter\x7d\x7d\n",
    "\n",
    "\x7b\x7b/isFirstInChapter\x7d\x7d\x7b\x7bhighlightPlain|br2nl|quote\x7d\x7d\n",
    ">\n",
    "> page \x7b\x7bpageno\x7d\x7d\n",
    "\x7b\x7b#note\x7d\x7d\n",
    "\n",
    "\x7b\x7bnote\x7d\x7d\n",
    "\x7b\x7b/note\x7d\x7d\n",
    "\n",
    "---\n"]

/-- A callout named after the colour of the highlight. -/
def callout : List String :=
  ["---\n",
    "description: Each highlight group as an Obsidian callout named after the highlight colour\n",
    "---\n",
    "\x7b\x7b#isFirstInChapter\x7d\x7d### \x7b\x7bchapter\x7d\x7d\n",
    "\n",
    "\x7b\x7b/isFirstInChapter\x7d\x7d> [!\x7b\x7bcallout\x7d\x7d] Page \x7b\x7bpageno\x7d\x7d",
    "\x7b\x7b#date\x7d\x7d, \x7b\x7bdate\x7d\x7d\x7b\x7b/date\x7d\x7d\n",
    "\x7b\x7bhighlightPlain|br2nl|quote\x7d\x7d\n",
    "\x7b\x7b#note\x7d\x7d>\n",
    "\x7b\x7bnote\x7d\x7d\n",
    "\x7b\x7b/note\x7d\x7d\n"]

/-- One item of a list for each group. -/
def compactList : List String :=
  ["---\n",
    "description: One bullet per highlight group with page number and notes inline\n",
    "---\n",
    "- \x7b\x7bhighlightPlain|br2nl|stripHTML\x7d\x7d (p. \x7b\x7bpageno\x7d\x7d)",
    "\x7b\x7b#notes\x7d\x7d: *\x7b\x7bnotes|stripHTML\x7d\x7d*\x7b\x7b/notes\x7d\x7d\n"]

/-- Chapter, styled highlight, quoted note and page. -/
def standard : List String :=
  ["---\n",
    "description: Chapter heading, styled highlight, quoted note and page reference\n",
    "---\n",
    "\x7b\x7b#isFirstInChapter\x7d\x7d## \x7b\x7bchapter\x7d\x7d\n",
    "\n",
    "\x7b\x7b/isFirstInChapter\x7d\x7d\x7b\x7bhighlight\x7d\x7d\n",
    "\x7b\x7b#note\x7d\x7d\n",
    "\n",
    "\x7b\x7bnote\x7d\x7d\n",
    "\x7b\x7b/note\x7d\x7d\n",
    "\n",
    "*Page \x7b\x7bpageno\x7d\x7d\x7b\x7b#date\x7d\x7d",
    " · \x7b\x7bdate\x7d\x7d\x7b\x7b/date\x7d\x7d*\n"]

/-- The files of the shipped templates in the order of their names. -/
def files : List (Text × Text) :=
  [("blockquote.md".toList, blockquote.flatMap String.toList),
    ("callout.md".toList, callout.flatMap String.toList),
    ("compact-list.md".toList, compactList.flatMap String.toList),
    ("default.md".toList, standard.flatMap String.toList)]

end Shipped
end Marginalia
