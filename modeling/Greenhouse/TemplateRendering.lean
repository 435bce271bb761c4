import Greenhouse.HawkbitIdentity
import Greenhouse.SedScript

/-!
# The rendered configuration files

The recipe of the identity script puts the server and the token into the
template of config.conf, and the script puts in the identity at each boot; the
recipe of wpa_supplicant puts in the Wi-Fi credentials. All values are pasted
into s commands of sed, so a file is rendered verbatim when no value has a
character that sed reads specially and none contains a placeholder that is
substituted later.
-/

namespace Greenhouse.TemplateRendering

open ShellText PlaceholderSubstitution SedScript HawkbitIdentity

/-- A value of the build configuration that can stand between single quotes. -/
structure BuildValue where
  text : Text
  noQuote : '\''∉text
  oneLine : '\n'∉text

/-- config.conf.template -/
def configTemplate : List Text :=
  ["[client]",
    "# hawkBit server address — set to your server's IP/hostname",
    "hawkbit_server = @@HAWKBIT_SERVER@@",
    "",
    "# Disable TLS; the local hawkBit is served over plain HTTP",
    "ssl = false",
    "ssl_verify = false",
    "",
    "# Device identity — populated at boot by rauc-hawkbit-identity.service",
    "target_name = @@TARGET_NAME@@",
    "",
    "# Gateway token from hawkBit System Config",
    "gateway_token = @@GATEWAY_TOKEN@@",
    "",
    "# Where to download bundles before installing",
    "bundle_download_location = /tmp/bundle.raucb",
    "",
    "# Log level: debug, info, message, warning, error",
    "log_level = message",
    "",
    "# Uncomment to enable RAUC bundle streaming (avoids full download to disk)",
    "# stream_bundle = true",
    "",
    "[device]",
    "product = Device Base Platform",
    "model = Raspberry Pi 4",
    "hw_revision = 1.0",
    "serial = @@SERIAL@@",
    "mac_address = @@MAC@@"].map String.toList

/-- wpa_supplicant.conf -/
def wpaTemplate : List Text :=
  ["ctrl_interface=/var/run/wpa_supplicant",
    "ctrl_interface_group=0",
    "update_config=1",
    "",
    "network=\x7b",
    "    ssid=\"uofm-secure\"",
    "    key_mgmt=WPA-EAP",
    "    eap=PEAP",
    "    identity=\"@UOFM_IDENTITY@\"",
    "    password=\"@UOFM_PASSWORD@\"",
    "    phase2=\"auth=MSCHAPV2\"",
    "    priority=20",
    "\x7d",
    "",
    "network=\x7b",
    "    ssid=\"@HOTSPOT_SSID@\"",
    "    psk=\"@HOTSPOT_PSK@\"",
    "    priority=30",
    "\x7d"].map String.toList

/-- The placeholders of config.conf that do_install replaces. -/
def installBindings (serverUrl gatewayToken : BuildValue) : List (Binding Char Char) :=
  [("@@HAWKBIT_SERVER@@".toList,serverUrl.text),("@@GATEWAY_TOKEN@@".toList,gatewayToken.text)]

/-- The placeholders of config.conf that the identity script replaces. -/
def bootBindings (shell : Text → Text) (serial mac : Text) : List (Binding Char Char) :=
  [("@@TARGET_NAME@@".toList,targetName shell serial mac),("@@SERIAL@@".toList,serial),
    ("@@MAC@@".toList,mac)]

/-- The placeholders of wpa_supplicant.conf. -/
def wpaBindings (identity password ssid psk : BuildValue) : List (Binding Char Char) :=
  [("@UOFM_IDENTITY@".toList,identity.text),("@UOFM_PASSWORD@".toList,password.text),
    ("@HOTSPOT_SSID@".toList,ssid.text),("@HOTSPOT_PSK@".toList,psk.text)]

/-- The template that do_install installs. -/
def installedTemplate (sed : Sed) (serverUrl gatewayToken : BuildValue) : Option (List Text) :=
  runSed sed ((installBindings serverUrl gatewayToken).map substituteCommand) configTemplate

/-- config.conf after the boot-time substitution of the installed template. -/
def configConf (sed bootSed : Sed) (shell : Text → Text) (serverUrl gatewayToken : BuildValue)
    (serial mac : Text) : Option (List Text) :=
  (installedTemplate sed serverUrl gatewayToken).bind fun template =>
    runSed bootSed ((bootBindings shell serial mac).map substituteCommand) template

/-- wpa_supplicant-wlan0.conf -/
def wpaConf (sed : Sed) (identity password ssid psk : BuildValue) : Option (List Text) :=
  runSed sed ((wpaBindings identity password ssid psk).map substituteCommand) wpaTemplate

/-- The file is the template with all placeholders replaced at once, every
value is taken as it is, by the command it stands in and by the later ones, and
no placeholder of the template is left. -/
structure RendersVerbatim (file : Option (List Text)) (template : List Text)
    (bindings : List (Binding Char Char)) : Prop where
  output : file=some (template.map (substitute id bindings))
  literal : ∀ c∈bindings,ReadsLiterally c
  replacesOriginal : ∀ l∈template,ReplacesOriginal bindings (original l)
  noneLeft : ∀ l∈template,NoneLeft (bindings.map Prod.fst)
    (substituteEach Prod.fst (bindings.map Binding.marked) (original l))

/-- The ampersand is the only special character of the values. -/
def OnlyAmpersands (bindings : List (Binding Char Char)) : Prop :=
  ∀ c∈bindings,∀ x∈c.2,x∈special '|' → x= '&'

/-- No value has a delimiter, a newline, an ampersand or a backslash. -/
def NoSpecial (bindings : List (Binding Char Char)) : Prop :=
  ∀ c∈bindings,∀ x∈c.2,x∉special '|'

/-- The characters of a line in front of the first mark. -/
def before (l : Text) : Text := l.takeWhile fun c => decide (c≠ '@')

/-- The characters of a line behind the last mark. -/
def after (l : Text) : Text := l.rtakeWhile fun c => decide (c≠ '@')

/-- No placeholder contains the characters next to the marks of the line. -/
def separated (placeholders : List Text) (l : Text) : Bool :=
  placeholders.all fun p =>
    ((before l).getLast?.all fun x => !p.contains x) && (after l).head?.all fun x => !p.contains x

/-- The text around the marks is free of placeholders. -/
theorem around_of_separated {placeholders : List Text} {l : Text} (hps : ∀ p∈placeholders,'@'∈p)
    (h : separated placeholders l=true) : Around id placeholders (before l) (after l) where
  before_free := by
    intro p hp hi
    rw [List.map_id] at hi
    exact absurd (List.mem_takeWhile_imp (hi.subset (hps p hp))) (by decide)
  after_free := by
    intro p hp hi
    rw [List.map_id] at hi
    exact absurd (List.mem_rtakeWhile_imp (hi.subset (hps p hp))) (by decide)
  before_last := by
    intro x hx p hp
    have hs := (Bool.and_eq_true_iff.mp (List.all_eq_true.mp h p hp)).1
    rw [hx,Option.all_some,Bool.not_eq_true',List.contains_eq_mem,decide_eq_false_iff_not] at hs
    exact hs
  after_first := by
    intro x hx p hp
    have hs := (Bool.and_eq_true_iff.mp (List.all_eq_true.mp h p hp)).2
    rw [hx,Option.all_some,Bool.not_eq_true',List.contains_eq_mem,decide_eq_false_iff_not] at hs
    exact hs

/-- What is decided about a list of placeholders and a template. -/
structure Checked (placeholders template : List Text) : Prop where
  mark : ∀ p∈placeholders,'@'∈p
  apart : placeholders.Pairwise fun p q => ¬p<:+:q
  literal : ∀ p∈placeholders,p.all isLiteral=true
  lines : ∀ l∈template,'@'∉l ∨
    separated placeholders l=true ∧ ∃ p∈placeholders,l=before l++p++after l
  places : ∀ p∈placeholders,∃ l∈template,
    separated placeholders l=true ∧ l=before l++p++after l

/-- Checked placeholders and lines fit together. -/
theorem fits_of_checked {placeholders template : List Text} {bindings : List (Binding Char Char)}
    (h : Checked placeholders template) (hb : bindings.map Prod.fst=placeholders) :
    Fits bindings template := by
  subst hb
  have hmark : ∀ c∈bindings,'@'∈c.1 := fun c hc => h.mark c.1 (List.mem_map_of_mem hc)
  refine ⟨fun c hc => List.ne_nil_of_mem (hmark c hc),List.pairwise_map.mp h.apart,
    fun l hl => ?_,fun c hc => ?_⟩
  · rcases h.lines l hl with hfree|⟨hs,p,hp,he⟩
    · exact Or.inl fun p hp hi => hfree (hi.subset (h.mark p hp))
    · exact Or.inr ⟨_,p,_,hp,he,around_of_separated h.mark hs⟩
  · obtain ⟨l,hl,hs,he⟩ := h.places c.1 (List.mem_map_of_mem hc)
    exact ⟨_,_,he ▸ hl,around_of_separated h.mark hs⟩

/-- The placeholders of config.conf, in the order of their substitution. -/
def configPlaceholders : List Text :=
  ["@@HAWKBIT_SERVER@@","@@GATEWAY_TOKEN@@","@@TARGET_NAME@@","@@SERIAL@@","@@MAC@@"].map
    String.toList

/-- The placeholders of wpa_supplicant.conf, in the order of their substitution. -/
def wpaPlaceholders : List Text :=
  ["@UOFM_IDENTITY@","@UOFM_PASSWORD@","@HOTSPOT_SSID@","@HOTSPOT_PSK@"].map String.toList

set_option maxRecDepth 4000 in
theorem checked_configTemplate : Checked configPlaceholders configTemplate := by
  rw [configPlaceholders,configTemplate]
  repeat rw [List.map_cons]
  repeat rw [String.toList_ofList]
  exact ⟨by decide,by decide,by decide,by decide,by decide⟩

theorem checked_wpaTemplate : Checked wpaPlaceholders wpaTemplate := by
  rw [wpaPlaceholders,wpaTemplate]
  repeat rw [List.map_cons]
  repeat rw [String.toList_ofList]
  exact ⟨by decide,by decide,by decide,by decide,by decide⟩

/-- The templates have no ampersand. -/
theorem ampersand_free_configTemplate : ∀ l∈configTemplate,'&'∉l := by
  rw [configTemplate]
  repeat rw [List.map_cons]
  repeat rw [String.toList_ofList]
  decide

theorem ampersand_free_wpaTemplate : ∀ l∈wpaTemplate,'&'∉l := by
  rw [wpaTemplate]
  repeat rw [List.map_cons]
  repeat rw [String.toList_ofList]
  decide

/-- A file that is written with every value read literally is rendered verbatim
exactly when no value has a special character or a later placeholder. -/
theorem rendersVerbatim_iff {file : Option (List Text)} {placeholders template : List Text}
    {bindings : List (Binding Char Char)} (h : Checked placeholders template)
    (hb : bindings.map Prod.fst=placeholders)
    (hfile : (∀ c∈bindings,ReadsLiterally c) →
      file=some (template.map (substituteEach id bindings))) :
    RendersVerbatim file template bindings ↔ NoSpecial bindings ∧ NoLaterPlaceholder bindings := by
  have hfits := fits_of_checked h hb
  have hreads : (∀ c∈bindings,ReadsLiterally c) ↔ NoSpecial bindings := by
    refine forall₂_congr fun c hc => readsLiterally_iff (hfits.nonempty c hc) ?_
    exact h.literal c.1 (hb ▸ List.mem_map_of_mem hc)
  constructor
  · intro hr
    exact ⟨hreads.mp hr.literal,hfits.replacesOriginal_iff.mp hr.replacesOriginal⟩
  · rintro ⟨hspecial,hlater⟩
    have hl := hreads.mpr hspecial
    refine ⟨?_,hl,hfits.replacesOriginal_iff.mpr hlater,fun l hl => (hfits.renders hlater hl).2⟩
    rw [hfile hl]
    exact congrArg some (List.map_congr_left fun l hl => (hfits.renders hlater hl).1)

/-- For all values, config.conf and wpa_supplicant-wlan0.conf are rendered
verbatim exactly when no value of the file, the target name among them, has a
special character or contains a placeholder that is substituted later. -/
theorem templates_verbatim_iff (sed bootSed : Sed) (shell : Text → Text)
    (serverUrl gatewayToken : BuildValue) (serial mac : Text)
    (identity password ssid psk : BuildValue) :
    (RendersVerbatim (configConf sed bootSed shell serverUrl gatewayToken serial mac) configTemplate
        (installBindings serverUrl gatewayToken++bootBindings shell serial mac) ↔
      NoSpecial (installBindings serverUrl gatewayToken++bootBindings shell serial mac) ∧
        NoLaterPlaceholder
          (installBindings serverUrl gatewayToken++bootBindings shell serial mac)) ∧
    (RendersVerbatim (wpaConf sed identity password ssid psk) wpaTemplate
        (wpaBindings identity password ssid psk) ↔
      NoSpecial (wpaBindings identity password ssid psk) ∧
        NoLaterPlaceholder (wpaBindings identity password ssid psk)) := by
  constructor
  · refine rendersVerbatim_iff checked_configTemplate rfl fun h => ?_
    have hinstall := fun c hc => h c (List.mem_append_left _ hc)
    have hboot := fun c hc => h c (List.mem_append_right _ hc)
    rw [configConf,installedTemplate,runSed_of_readsLiterally _ _ hinstall,Option.bind_some,
      runSed_of_readsLiterally _ _ hboot,List.map_map]
    refine congrArg some (List.map_congr_left fun l _ => ?_)
    exact (substituteEach_append _).symm
  · refine rendersVerbatim_iff checked_wpaTemplate rfl fun h => ?_
    exact runSed_of_readsLiterally _ _ h

/-- The ampersand is no part of a literal pattern. -/
theorem ampersand_notMem_of_literal {p : Text} (h : p.all isLiteral=true) : '&'∉p := fun hmem =>
  absurd (List.all_eq_true.mp h _ hmem) (by decide)

/-- An ampersand is not among the texts that sed puts in. -/
theorem ampersand_notMem_matchedValue {c : Binding Char Char} (h : c.1.all isLiteral=true) :
    '&'∉matchedValue c := by
  intro hmem
  obtain ⟨x,_,hx⟩ := List.mem_flatMap.mp hmem
  split at hx
  · exact ampersand_notMem_of_literal h hx
  · rename_i hne
    exact hne (List.mem_singleton.mp hx).symm

/-- What sed makes of ampersands is not the verbatim file: that one has them. -/
theorem file_ne_of_ampersand {placeholders template : List Text} {bindings : List (Binding Char Char)}
    (h : Checked placeholders template) (hb : bindings.map Prod.fst=placeholders)
    (htemplate : ∀ l∈template,'&'∉l) (hamp : ∃ c∈bindings,'&'∈c.2) :
    template.map (substituteEach id (bindings.map fun c => (c.1,matchedValue c)))≠
      template.map (substitute id bindings) := by
  have hfits := fits_of_checked h hb
  obtain ⟨c,hc,hvalue⟩ := hamp
  obtain ⟨before,after,hl,ha⟩ := hfits.places c hc
  obtain ⟨left,right,rfl⟩ := List.append_of_mem hc
  intro heq
  have hline := List.map_eq_map_iff.mp heq _ hl
  have hverbatim : '&'∈substituteEach id ((left++c::right).map fun c => (c.1,matchedValue c))
      (before++c.1++after) := by
    rw [hline,hfits.substitute_place ha]
    exact List.mem_append_left _ (List.mem_append_right _ hvalue)
  rcases mem_substituteEach hverbatim with hmem|⟨b,hbind,hmem⟩
  · exact htemplate _ hl hmem
  · obtain ⟨d,hd,rfl⟩ := List.mem_map.mp hbind
    exact ampersand_notMem_matchedValue (h.literal d.1 (hb ▸ List.mem_map_of_mem hd)) hmem

/-- A file differs from the verbatim one whenever one of its values has an
ampersand and no other special character stands in any of them. -/
theorem templates_differ_of_ampersand (sed bootSed : Sed) (shell : Text → Text)
    (serverUrl gatewayToken : BuildValue) (serial mac : Text)
    (identity password ssid psk : BuildValue) :
    (OnlyAmpersands (installBindings serverUrl gatewayToken++bootBindings shell serial mac) →
      (∃ c∈installBindings serverUrl gatewayToken++bootBindings shell serial mac,'&'∈c.2) →
      configConf sed bootSed shell serverUrl gatewayToken serial mac≠some (configTemplate.map
        (substitute id (installBindings serverUrl gatewayToken++bootBindings shell serial mac)))) ∧
    (OnlyAmpersands (wpaBindings identity password ssid psk) →
      (∃ c∈wpaBindings identity password ssid psk,'&'∈c.2) →
      wpaConf sed identity password ssid psk≠
        some (wpaTemplate.map (substitute id (wpaBindings identity password ssid psk)))) := by
  constructor
  · intro honly hamp heq
    have hfits : Fits (installBindings serverUrl gatewayToken++bootBindings shell serial mac)
        configTemplate :=
      fits_of_checked checked_configTemplate rfl
    have hliteral : ∀ c∈installBindings serverUrl gatewayToken++bootBindings shell serial mac,
        c.1.all isLiteral=true := fun c hc =>
      checked_configTemplate.literal c.1 (List.mem_map_of_mem (f:=Prod.fst) hc)
    rw [configConf,installedTemplate,
      runSed_of_ampersands _ _ (fun c hc => hfits.nonempty c (List.mem_append_left _ hc))
        (fun c hc => hliteral c (List.mem_append_left _ hc))
        fun c hc => honly c (List.mem_append_left _ hc),Option.bind_some,
      runSed_of_ampersands _ _ (fun c hc => hfits.nonempty c (List.mem_append_right _ hc))
        (fun c hc => hliteral c (List.mem_append_right _ hc))
        fun c hc => honly c (List.mem_append_right _ hc),List.map_map] at heq
    refine file_ne_of_ampersand checked_configTemplate rfl ampersand_free_configTemplate hamp ?_
    rw [←Option.some.inj heq]
    refine List.map_congr_left fun l _ => ?_
    rw [List.map_append]
    exact substituteEach_append _
  · intro honly hamp heq
    have hfits : Fits (wpaBindings identity password ssid psk) wpaTemplate :=
      fits_of_checked checked_wpaTemplate rfl
    have hliteral : ∀ c∈wpaBindings identity password ssid psk,c.1.all isLiteral=true := fun c hc =>
      checked_wpaTemplate.literal c.1 (List.mem_map_of_mem (f:=Prod.fst) hc)
    rw [wpaConf,runSed_of_ampersands _ _ hfits.nonempty hliteral honly] at heq
    exact file_ne_of_ampersand checked_wpaTemplate rfl ampersand_free_wpaTemplate hamp
      (Option.some.inj heq)

/-- The default of the Wi-Fi values of the recipe other than the identity. -/
def changeMe : BuildValue := ⟨"CHANGE_ME".toList,by decide,by decide⟩

/-- The default of the Wi-Fi identity. -/
def changeMeIdentity : BuildValue := ⟨"CHANGE_ME@myumanitoba.ca".toList,by decide,by decide⟩

/-- A password with an ampersand. -/
def ampersandPassword : BuildValue := ⟨"a&b".toList,by decide,by decide⟩

/-- The line with the password in a file. -/
def passwordLine (file : Option (List Text)) : Option Text := file.bind fun f => f[9]?

/-- The ampersand puts the placeholder back between the quotes. -/
theorem password_not_verbatim :
    passwordLine (wpaConf (fun _ _ => none) changeMeIdentity ampersandPassword changeMe changeMe)=
        some "    password=\"a@UOFM_PASSWORD@b\"".toList ∧
      wpaConf (fun _ _ => none) changeMeIdentity ampersandPassword changeMe changeMe≠
        some (wpaTemplate.map
          (substitute id (wpaBindings changeMeIdentity ampersandPassword changeMe changeMe))) := by
  have hfile : passwordLine (wpaConf (fun _ _ => none) changeMeIdentity ampersandPassword changeMe changeMe)=
      some "    password=\"a@UOFM_PASSWORD@b\"".toList := by
    decide +kernel
  refine ⟨hfile,fun h => ?_⟩
  have hline : passwordLine (some (wpaTemplate.map
      (substitute id (wpaBindings changeMeIdentity ampersandPassword changeMe changeMe))))=
        some "    password=\"a&b\"".toList := by
    decide +kernel
  rw [h,hline] at hfile
  exact absurd hfile (by decide)

end Greenhouse.TemplateRendering
