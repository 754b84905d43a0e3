/-!
Contract: the kinds of settings that a section may declare.

Owns:
- the setting types and their names, with room for names that are not known;
- the resources that a setting may pick;
- the sets of setting types that other rules ask for.
-/

namespace FlatLiquid

/-- A store resource that is handed to a template as a variable of its own. -/
inductive Resource where
  | product
  | collection
  | article
  | blog
  | page
deriving DecidableEq, Repr

namespace Resource

/-- The variable that holds the resource. -/
def name : Resource → String
  | .product => "product"
  | .collection => "collection"
  | .article => "article"
  | .blog => "blog"
  | .page => "page"

def all : List Resource :=
  [.product, .collection, .article, .blog, .page]

/-- The resource of a variable. -/
def ofName? (name : String) : Option Resource :=
  all.find? fun resource => resource.name == name

end Resource

/-- The type of a setting. A name that is not known is kept. -/
inductive SettingType where
  | text
  | textarea
  | richtext
  | inlineRichtext
  | number
  | range
  | checkbox
  | select
  | radio
  | color
  | colorBackground
  | fontPicker
  | textAlignment
  | imagePicker
  | video
  | videoUrl
  | url
  | html
  | liquid
  | article
  | blog
  | collection
  | page
  | product
  | linkList
  | collectionList
  | productList
  | header
  | paragraph
  | colorScheme
  | colorSchemeGroup
  | metaobject
  | metaobjectList
  | other (name : String)
deriving DecidableEq, Repr

namespace SettingType

def name : SettingType → String
  | .text => "text"
  | .textarea => "textarea"
  | .richtext => "richtext"
  | .inlineRichtext => "inline_richtext"
  | .number => "number"
  | .range => "range"
  | .checkbox => "checkbox"
  | .select => "select"
  | .radio => "radio"
  | .color => "color"
  | .colorBackground => "color_background"
  | .fontPicker => "font_picker"
  | .textAlignment => "text_alignment"
  | .imagePicker => "image_picker"
  | .video => "video"
  | .videoUrl => "video_url"
  | .url => "url"
  | .html => "html"
  | .liquid => "liquid"
  | .article => "article"
  | .blog => "blog"
  | .collection => "collection"
  | .page => "page"
  | .product => "product"
  | .linkList => "link_list"
  | .collectionList => "collection_list"
  | .productList => "product_list"
  | .header => "header"
  | .paragraph => "paragraph"
  | .colorScheme => "color_scheme"
  | .colorSchemeGroup => "color_scheme_group"
  | .metaobject => "metaobject"
  | .metaobjectList => "metaobject_list"
  | .other name => name

/-- Every type that is known. -/
def known : List SettingType :=
  [.text, .textarea, .richtext, .inlineRichtext, .number, .range,
   .checkbox, .select, .radio, .color, .colorBackground, .fontPicker,
   .textAlignment, .imagePicker, .video, .videoUrl, .url, .html,
   .liquid, .article, .blog, .collection, .page, .product,
   .linkList, .collectionList, .productList, .header, .paragraph, .colorScheme,
   .colorSchemeGroup, .metaobject, .metaobjectList]

def ofName (name : String) : SettingType :=
  (known.find? fun type => type.name == name).getD (.other name)

/-- The name is not known. -/
def isOther : SettingType → Bool
  | .other _ => true
  | _ => false

/-- The value names store resources. Such a value is never stored as a default. -/
def isResource : SettingType → Bool
  | .product | .collection | .article | .blog | .page | .linkList | .productList | .collectionList
  | .metaobject | .metaobjectList => true
  | _ => false

/-- The value changes how a section looks and not what it says. -/
def isPresentational : SettingType → Bool
  | .checkbox | .color | .colorBackground | .colorScheme | .fontPicker | .number | .radio | .range
  | .select | .textAlignment => true
  | _ => false

/-- The setting is a note in the editor and has no value. -/
def isDisplayOnly : SettingType → Bool
  | .header | .paragraph => true
  | _ => false

/-- The resource that a setting of the type picks. -/
def resource? : SettingType → Option Resource
  | .product => some .product
  | .collection => some .collection
  | .article => some .article
  | .blog => some .blog
  | .page => some .page
  | _ => none

end SettingType

end FlatLiquid
