import ModelSchema.Api.Metadata

namespace ModelSchema.Api.Console

def package : String :=
  "github.com/openshift/api/console/v1"

def lines (texts : List String) : String :=
  "\n".intercalate texts

def label (name description : String) : Label :=
  { type := .standard ("console." ++ name), name, description := some description }

def record (name description : String) (fields : Fields) : Shape :=
  .record (label name description) .strict fields

def field (name description : String) (shape : Shape) (rest : Fields) : Fields :=
  .own { name, description := some description } shape rest

def extra (name description : String) (shape : Shape) (rest : Fields) : Fields :=
  .own { name, description := some description, presence := .omittable } shape rest

def kind (name description : String) (spec : Shape) : Shape :=
  record name description <|
    .spread typeMetaLabel typeMetaFields <|
    required "metadata" objectMeta <|
    required "spec" spec .nil

def kindList (name description : String) (item : Shape) : Shape :=
  record name description <|
    .spread typeMetaLabel typeMetaFields <|
    .own { name := "metadata", presence := .defaulted } listMeta <|
    required "items" (.list item) .nil

def linkLabel : Label :=
  label "Link" "Link is an object that holds a display text and a link."

def linkFields : Fields :=
  field "text" "text is the display text for the link" .text <|
  field "href" "href is the absolute secure URL for the link (must use https)" .text .nil

def link : Shape :=
  .record linkLabel .strict linkFields

def applicationMenuSpec : Shape :=
  record "ApplicationMenuSpec"
    (lines [
      "ApplicationMenuSpec is the specification of the desired section and icon used for the link",
      "in the application menu."]) <|
    field "section" "section is the section of the application menu in which the link should appear."
      .text <|
    extra "imageURL"
      "imageUrl is the URL for the icon used in front of the link in the application menu."
      .text .nil

def namespaceDashboardSpec : Shape :=
  record "NamespaceDashboardSpec"
    (lines [
      "NamespaceDashboardSpec is a specification of namespaces in which the dashboard link should",
      "appear."]) <|
    extra "namespaces"
      "namespaces is an array of namespace names in which the dashboard link should appear."
      (.list .text) <|
    extra "namespaceSelector"
      "namespaceSelector is used to select the Namespaces that should contain dashboard link by label."
      (.optional labelSelector) .nil

def consoleLinkLocation : Shape :=
  .choice (label "ConsoleLinkLocation" "ConsoleLinkLocation is the location of the console link.")
    "ApplicationMenu" ["HelpMenu", "UserMenu", "NamespaceDashboard"]

def consoleLinkSpec : Shape :=
  record "ConsoleLinkSpec" "ConsoleLinkSpec is the desired console link configuration." <|
    .spread linkLabel linkFields <|
    field "location"
      "location determines which location in the console the link will be appended to."
      consoleLinkLocation <|
    extra "applicationMenu"
      (lines [
        "applicationMenu holds information about section and icon used for the link in the",
        "application menu, and it is applicable only when location is set to ApplicationMenu."])
      (.optional applicationMenuSpec) <|
    extra "namespaceDashboard"
      (lines [
        "namespaceDashboard holds information about namespaces in which the dashboard link should",
        "appear, and it is applicable only when location is set to NamespaceDashboard.",
        "If not specified, the link will appear in all namespaces."])
      (.optional namespaceDashboardSpec) .nil

def consoleLink : Shape :=
  kind "ConsoleLink"
    "ConsoleLink is an extension for customizing OpenShift web console links." consoleLinkSpec

def consoleLinkList : Shape :=
  kindList "ConsoleLinkList" "ConsoleLinkList is a list of ConsoleLink objects." consoleLink

def cliDownloadLink : Shape :=
  record "CLIDownloadLink" "CLIDownloadLink is a link to a CLI binary." <|
    extra "text" "text is the display text for the link" .text <|
    field "href" "href is the absolute secure URL for the link (must use https)" .text .nil

def consoleCLIDownloadSpec : Shape :=
  record "ConsoleCLIDownloadSpec"
    "ConsoleCLIDownloadSpec is the desired cli download configuration." <|
    field "displayName" "displayName is the display name of the CLI download." .text <|
    field "description"
      "description is the description of the CLI download (can include markdown)." .text <|
    field "links" "links is a list of objects that provide CLI download link details."
      (.list cliDownloadLink) .nil

def consoleCLIDownload : Shape :=
  kind "ConsoleCLIDownload"
    (lines [
      "ConsoleCLIDownload is an extension for configuring openshift web console command line interface",
      "(CLI) downloads."])
    consoleCLIDownloadSpec

def consoleCLIDownloadList : Shape :=
  kindList "ConsoleCLIDownloadList"
    "ConsoleCLIDownloadList is a list of ConsoleCLIDownload objects." consoleCLIDownload

def consoleExternalLogLinkSpec : Shape :=
  record "ConsoleExternalLogLinkSpec"
    (lines [
      "ConsoleExternalLogLinkSpec is the desired log link configuration.",
      "The log link will appear on the logs tab of the pod details page."]) <|
    field "text" "text is the display text for the link" .text <|
    field "hrefTemplate"
      (lines [
        "hrefTemplate is an absolute secure URL (must use https) for the log link including",
        "variables to be replaced."])
      .text <|
    extra "namespaceFilter"
      (lines [
        "namespaceFilter is a regular expression used to restrict a log link to a",
        "matching set of namespaces."])
      .text .nil

def consoleExternalLogLink : Shape :=
  kind "ConsoleExternalLogLink"
    "ConsoleExternalLogLink is an extension for customizing OpenShift web console log links."
    consoleExternalLogLinkSpec

def consoleExternalLogLinkList : Shape :=
  kindList "ConsoleExternalLogLinkList"
    "ConsoleExternalLogLinkList is a list of ConsoleExternalLogLink objects." consoleExternalLogLink

def consoleNotificationLocationSelector : Shape :=
  .choice (label "ConsoleNotificationLocationSelector"
      (lines [
        "ConsoleNotificationLocationSelector is a set of possible notification targets",
        "to which a notification may be appended."]))
    "BannerTop" ["BannerBottom", "BannerTopBottom"]

def consoleNotificationSpec : Shape :=
  record "ConsoleNotificationSpec"
    "ConsoleNotificationSpec is the desired console notification configuration." <|
    field "text" "text is the visible text of the notification." .text <|
    extra "location" "location is the location of the notification in the console."
      (.optional consoleNotificationLocationSelector) <|
    extra "link" "link is an object that holds notification link details." (.optional link) <|
    extra "color" "color is the color of the text for the notification as CSS data type color."
      .text <|
    extra "backgroundColor"
      "backgroundColor is the color of the background for the notification as CSS data type color."
      .text .nil

def consoleNotification : Shape :=
  kind "ConsoleNotification"
    "ConsoleNotification is the extension for configuring openshift web console notifications."
    consoleNotificationSpec

def consoleNotificationList : Shape :=
  kindList "ConsoleNotificationList"
    "ConsoleNotificationList is a list of ConsoleNotification objects." consoleNotification

def consoleYAMLSampleSpec : Shape :=
  record "ConsoleYAMLSampleSpec"
    (lines [
      "ConsoleYAMLSampleSpec is the desired YAML sample configuration.",
      "Samples will appear with their descriptions in a samples sidebar",
      "when creating a resources in the web console."]) <|
    field "targetResource"
      (lines [
        "targetResource contains apiVersion and kind of the resource",
        "YAML sample is representating."])
      typeMeta <|
    field "title" "title of the YAML sample." .text <|
    field "description" "description of the YAML sample." .text <|
    field "yaml" "yaml is the YAML sample to display." .text <|
    field "snippet"
      (lines [
        "snippet indicates that the YAML sample is not the full YAML resource",
        "definition, but a fragment that can be inserted into the existing",
        "YAML document at the user's cursor."])
      .flag .nil

def consoleYAMLSample : Shape :=
  kind "ConsoleYAMLSample"
    "ConsoleYAMLSample is an extension for customizing OpenShift web console YAML samples."
    consoleYAMLSampleSpec

def consoleYAMLSampleList : Shape :=
  kindList "ConsoleYAMLSampleList"
    "ConsoleYAMLSampleList is a list of ConsoleYAMLSample objects." consoleYAMLSample

def shapes : List Shape :=
  [consoleLink, consoleLinkSpec, applicationMenuSpec, namespaceDashboardSpec, consoleLinkLocation,
    consoleLinkList, consoleCLIDownload, consoleCLIDownloadSpec, cliDownloadLink,
    consoleCLIDownloadList, consoleExternalLogLink, consoleExternalLogLinkSpec,
    consoleExternalLogLinkList, consoleNotification, consoleNotificationSpec,
    consoleNotificationLocationSelector, consoleNotificationList, consoleYAMLSample,
    consoleYAMLSampleSpec, consoleYAMLSampleList, link]

end ModelSchema.Api.Console
