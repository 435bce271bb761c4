import Greenhouse.ConditionalConfig
import Greenhouse.IniText
import Greenhouse.LineEditing
import Mathlib.Data.List.Forall2

/-!
# Who may log in to an image

The commands that finish the root file system rewrite lines of sshd_config. A
line counts as the one for a keyword when it begins with it behind white space
and hash signs, so the commented defaults of the file are switched on. sshd
reads the result as a configuration with conditional blocks.
-/

namespace Greenhouse.ImageSsh

open ShellText IniText LineEditing ConditionalConfig

/-- The keywords that the commands write. -/
inductive Keyword
  | permitRootLogin
  | permitEmptyPasswords
  | passwordAuthentication
  deriving DecidableEq

/-- The arguments that the commands write. -/
inductive Answer
  | yes
  | no
  deriving DecidableEq

/-- A keyword as it is written. -/
def Keyword.text : Keyword → Text
  | .permitRootLogin => "PermitRootLogin".toList
  | .permitEmptyPasswords => "PermitEmptyPasswords".toList
  | .passwordAuthentication => "PasswordAuthentication".toList

/-- An argument as it is written. -/
def Answer.text : Answer → Text
  | .yes => "yes".toList
  | .no => "no".toList

/-- The configuration files under /etc/ssh. -/
inductive ConfigFile
  | sshdConfig
  | sshdConfigReadonly
  deriving DecidableEq

/-- The configuration files that exist. -/
abbrev EtcSsh := ConfigFile → Option Text

/-- The characters in front of a keyword: [#[:space:]]. -/
def isLead (c : Char) : Bool := decide (c= '#') || isSpace c

/-- The line matches ^[#[:space:]]*KEYWORD.* -/
def matched (k : Keyword) (l : Text) : Bool := k.text.isPrefixOf (l.dropWhile isLead)

/-- The line that replaces it. -/
def keywordLine (k : Keyword) (a : Answer) : Text := k.text++ ' '::a.text

/-- sed -i 's/^[#[:space:]]*KEYWORD.*/KEYWORD ANSWER/' -/
def sed (k : Keyword) (a : Answer) (t : Text) : Text :=
  edited (fun l => [if matched k l then keywordLine k a else l]) t

/-- Accept logins with empty passwords. -/
def sshAllowEmptyPassword (files : EtcSsh) : EtcSsh :=
  fun f => (files f).map (sed .permitEmptyPasswords .yes)

/-- Accept logins of root. -/
def sshAllowRootLogin (files : EtcSsh) : EtcSsh :=
  fun f => (files f).map (sed .permitRootLogin .yes)

/-- Refuse passwords, in sshd_config only. -/
def disableSshPasswords (files : EtcSsh) : EtcSsh
  | .sshdConfig => (files .sshdConfig).map fun t =>
    sed .permitEmptyPasswords .no (sed .passwordAuthentication .no t)
  | .sshdConfigReadonly => files .sshdConfigReadonly

/-- The commands that finish the root file system and concern sshd. -/
inductive Command
  | sshAllowEmptyPassword
  | sshAllowRootLogin
  | disableSshPasswords
  deriving DecidableEq

/-- Run a command. -/
def Command.run : Command → EtcSsh → EtcSsh
  | .sshAllowEmptyPassword => ImageSsh.sshAllowEmptyPassword
  | .sshAllowRootLogin => ImageSsh.sshAllowRootLogin
  | .disableSshPasswords => ImageSsh.disableSshPasswords

/-- Run one command after the other. -/
def runAll (cs : List Command) (files : EtcSsh) : EtcSsh := cs.foldl (fun s c => c.run s) files

/-- A text in lower case. -/
def lower (t : Text) : Text := t.map Char.toLower

/-- A keyword as sshd compares it. -/
def Keyword.key (k : Keyword) : Text := lower k.text

/-- The characters that sshd skips in front of a keyword. -/
def isGap (c : Char) : Bool := decide (c∈[' ','\t','\r','\n'])

/-- The letters and digits at the start of a line. -/
def word (l : Text) : Text := (l.dropWhile isGap).takeWhile Char.isAlphanum

/-- What sshd makes of its configuration, as far as its manual says it: a keyword
with yes or no is one setting; a line sets the keyword it begins with, unless it
includes other files; no keyword is longer than one of the written ones and
begins with it; a comment says nothing, and neither does a line that begins with
white space that sshd does not skip; blocks are opened by Match. -/
structure Documented (sshd : Reader Text Text Text) : Prop where
  answers : ∀ k a,sshd.settings (keywordLine k a)=[(k.key,a.text)]
  names : ∀ l,word l≠[] → ∀ x∈sshd.settings l,x.1=lower (word l) ∨ lower (word l)="include".toList
  known : ∀ l,∀ x∈sshd.settings l,∀ k : Keyword,k.key<+:x.1 → x.1=k.key
  silent : ∀ l c,(l.dropWhile isGap).head?=some c → isLead c=true →
    sshd.settings l=[] ∧ sshd.opens l=false
  blocks : ∀ l,word l≠[] → sshd.opens l=true → lower (word l)="match".toList

/-- How the commands write. -/
def writer : Writer Keyword Answer Text Text Text where
  mentions := matched
  line := keywordLine
  key := Keyword.key
  argument := Answer.text

section Lines

variable {sshd : Reader Text Text Text} {k k' : Keyword} {a : Answer} {l : Text}

end Lines

section Runs

variable {sshd : Reader Text Text Text} {files : EtcSsh} {f : ConfigFile} {t : Text}
  {ws xs : List (Keyword×Answer)}

/-- A file with the writes made in each line. -/
def written (ws : List (Keyword×Answer)) (t : Text) : Text :=
  edited (fun l => [writer.writeAll ws l]) t

/-- The argument behind the word at the start of a line. -/
def argument (l : Text) : Text :=
  (((l.dropWhile isGap).dropWhile Char.isAlphanum).dropWhile isGap).takeWhile fun c => !isGap c

end Runs

end Greenhouse.ImageSsh
