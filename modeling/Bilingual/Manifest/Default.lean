import Bilingual.Manifest.Basic

set_option autoImplicit false

/-! # The default manifest

The manifest of a project that has none of its own: the files of a web application with its English and
Arabic texts, and the English texts to export where a file does not have them. -/

namespace Bilingual.Manifest

namespace Default

/-- A condition that tells whether the application shows the secondary locale. -/
def condition : Text := "language === '\x7blocale\x7d'"

/-- The list of a locale in the pricing plans. -/
def planAnchors (plan : Text) : List Text := ["const plans = \x7b", "\x7blocale\x7d: [", plan]

/-- A field that goes by its name. -/
def field (name : Text) : PairField := { name, label := none, followedBy := none }

/-- Records in a list that begins with a given text. -/
def listed (name start : Text) (fields : List PairField) (defaults : List (OrderedMap Text)) : Category where
  name := name
  region := some { start := some start, stop := some "];" }
  placement := .pairs fields defaults

/-- Choices that show the same texts in English as they go by. -/
def choices (name : Text) (texts : List Text) : Category where
  name := name
  region := none
  placement := .choices condition (texts.map fun t => (t, t))

/-- The literals of a pricing plan. -/
def planFields : List ScalarField := [
  { name := "name", label := none, localeLabels := [] },
  { name := "description", label := none, localeLabels := [] },
  { name := "cta", label := some "ctaKey", localeLabels := [("ar", "ctaKeyAr")] }]

/-- The literals of one pricing plan. -/
def plan (name anchor : Text) (defaults : OrderedMap Text) : Category where
  name := name
  region := none
  placement := .scalarFields (planAnchors anchor) planFields defaults

/-- The features of one pricing plan. -/
def planFeatures (name anchor : Text) (defaults : List Text) : Category where
  name := name
  region := none
  placement := .listBlock { anchors := planAnchors anchor, opener := "features: [", localeOpeners := [] }
    "value" (defaults.map fun t => [("value", t)])

/-- The questions and answers of the pricing page. -/
def pricingQuestions : Category where
  name := "pricingFaqs"
  region := none
  placement := .recordBlock
    { anchors := ["const faqs = \x7b"], opener := "\x7blocale\x7d: [", localeOpeners := [] } ["q", "a"]
    [[("q", "Can I change plans later?"),
      ("a", "Yes. You can upgrade or downgrade anytime from your subscription settings. Differences are prorated.")],
     [("q", "What payment methods do you accept?"),
      ("a", "We accept credit and debit cards (Visa, Mastercard, American Express) through a secure payment processor.")],
     [("q", "Is there a refund policy?"),
      ("a", "Yes. See our Refund Policy page for details. We offer refunds within a specified period for new subscribers.")],
     [("q", "Do you offer student discounts?"),
      ("a", "We are working on adding student discounts soon. Contact us at support@shyftcut.com for more.")]]

/-- The values on the page about the project. -/
def aboutValues : Category :=
  listed "aboutValues" "const values = ["
    [{ name := "title", label := none, followedBy := some "\\s*,\\s*description" }, field "description"]
    [[("title", "Clarity First"),
      ("description", "We believe everyone deserves a clear path to their career goals.")],
     [("title", "Accessibility"),
      ("description", "Career guidance should be available to everyone, not just the privileged few.")],
     [("title", "Innovation"),
      ("description", "We leverage cutting-edge AI to deliver personalized guidance at scale.")],
     [("title", "Empathy"),
      ("description", "Career transitions are hard. We design with compassion and understanding.")]]

/-- The rows of the feature comparison. -/
def featureComparison : Category where
  name := "featureComparison"
  region := none
  placement := .pairs [field "feature"]
    (["Roadmaps", "AI chat messages", "Quizzes", "Notes", "Tasks", "AI task suggestions",
      "Focus (Pomodoro) timer", "Course recommendations", "CV analysis", "Job recommendations (10/week)",
      "Progress tracking", "Email support"].map fun (t : String) => [("feature", Text.ofString t)])

/-- Links whose label stands behind their target. -/
def links (name target : Text) : Category where
  name := name
  region := none
  placement := .keyedPairs target "labelKey" []

/-- The posts of the blog, bodies and other texts. -/
def blog : List Category :=
  let region : Region := { start := some "export const blogPosts", stop := none }
  [⟨"blogPosts", some region, .documents "slug" "content" []⟩,
   ⟨"blogPostMeta", some region, .pairs [field "title", field "excerpt"] []⟩]

/-- The files of the application. -/
def artifacts : List Artifact := [
  ⟨"src/contexts/LanguageContext.tsx", [⟨"languageContext", none,
    .dictBlock ⟨["const translations"], "\x7blocale\x7d: \x7b", []⟩ ["inlineStrings", "hardcodedStrings"] []⟩]⟩,
  ⟨"src/data/testimonials.ts", [⟨"testimonials",
    some { start := some "export const testimonials", stop := none },
    .pairs [field "quote", field "role"] []⟩]⟩,
  ⟨"src/pages/Pricing.tsx", [
    plan "planFree" "id: 'free'" [("name", "Free"),
      ("description", "Get started with basic features"), ("cta", "Get Started Free")],
    plan "planPremium" "id: 'premium'" [("name", "Premium"),
      ("description", "Unlimited roadmaps and AI"), ("cta", "Upgrade Now")],
    planFeatures "planFeaturesFree" "id: 'free'"
      ["1 career roadmap", "10 AI chat messages per month", "Basic course recommendations"],
    planFeatures "planFeaturesPremium" "id: 'premium'"
      ["Unlimited career roadmaps", "Unlimited AI coaching", "Progress tracking & analytics",
        "Email support"],
    pricingQuestions]⟩,
  ⟨"src/data/seo-content.ts", [⟨"seo", none,
    .keyedRecordBlock ⟨[], "export const seoByPath: Record<string, SeoEntry> = \x7b",
        [("ar", "export const seoByPathAr: Record<string, SeoEntry> = \x7b")]⟩
      ["title", "description"] []⟩]⟩,
  ⟨"src/data/blog-posts.ts", blog⟩,
  ⟨"src/pages/Careers.tsx", [
    listed "careersBenefits" "const benefits = [" [field "title", field "description"] [],
    listed "careersOpenings" "const openings = ["
      [field "title", field "department", field "location", field "type"] [],
    listed "careersSteps" "const steps = [" [field "title", field "description"] [],
    choices "careersHero" ["Back to Home", "Join Our Team", "Open Positions"]]⟩,
  ⟨"src/pages/Contact.tsx", [
    listed "contactFaqs" "const faqs = [" [field "question", field "answer"] [],
    choices "contactText" ["Back to Home", "Get in Touch", "Send Us a Message", "Send message"]]⟩,
  ⟨"src/pages/About.tsx", [
    aboutValues,
    listed "aboutTimeline" "const timeline = [" [field "event"]
      [[("event", "Idea conceived")], [("event", "Product built")],
        [("event", "Launching February 2026")]]]⟩,
  ⟨"src/pages/Refund.tsx", [
    listed "refundExceptions" "const exceptions = [" [field "title", field "description"] [],
    choices "refundText" ["Refund Policy", "All Sales Are Final", "Cancellation", "Contact Us"]]⟩,
  ⟨"src/components/pricing/FeatureComparison.tsx", [featureComparison]⟩,
  ⟨"src/components/layout/Footer.tsx", [links "footerLinks" "to"]⟩,
  ⟨"src/components/layout/AppSidebar.tsx", [links "appSidebarLinks" "href"]⟩,
  ⟨"src/components/layout/AppMoreSheet.tsx", [⟨"appMoreSheetLinks", none,
    .pairs [⟨"label", some "labelKey", some "\\s*,?\\s*icon\\s*:"⟩] []⟩]⟩,
  ⟨"src/pages/Terms.tsx", [choices "termsText" []]⟩,
  ⟨"src/pages/Privacy.tsx", [choices "privacyText" []]⟩,
  ⟨"src/pages/Cookies.tsx", [
    listed "cookieTypes" "const cookieTypes = [" [field "purpose", field "duration"] [],
    choices "cookiesText" []]⟩]

end Default

/-- The default manifest. -/
def default : Manifest where
  artifacts := Default.artifacts
  references := [⟨"inlineStrings", none, []⟩,
    ⟨"hardcodedStrings", none,
      [("auth.sessionExpired", "Your session has expired. Please sign in again.")]⟩]

end Bilingual.Manifest
